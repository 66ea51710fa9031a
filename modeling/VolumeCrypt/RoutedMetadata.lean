import VolumeCrypt.FilterIo
import VolumeCrypt.RawDisk
import VolumeCrypt.OpenConsistency

/-!
# Metadata through the bound filter

A handle on the volume path reaches the disk through the filter. The fallback path of
PREPARE writes the replicas with such a handle after the provisional volume is bound, and
`IOCTL_JVCK_ATTACH` opens the metadata with one. The filter shifts every request by the
header replicas and answers the length query with the data region, while both callers
count sectors from the start of the volume.
-/
namespace RoutedMetadata

open ByteString ByteMemory VckTypes SectorIo JvckLayout JvckStore JvckReplicas VolumeSweep DataPath FilterIo
open PrepareLayout Transparency OpenedStore OpenConsistency JvckRuns
open JvckMetadata (Primitives)
open RawDisk (runSync runSync_of_lt)

/-! ## The handle -/

/-- A handle of `lib/windrv/src/io.rs` with the size it was opened with. -/
structure KernelVolumeIo where
  sectorSize : UInt32
  totalSectors : UInt64
  addressable : totalSectors.toNat * sectorSize.toNat < 2 ^ 64

/-- The request that `run_sync` sends for a buffer. -/
def request (byteOffset : Nat) (buf : Bytes) : Irp :=
  ⟨UInt64.ofNat byteOffset, UInt32.ofNat buf.length, buf, true, true⟩

/-- The raw device below the filter serves whole sectors. -/
def lowerRead (d : Device) (irp : Irp) : VckResult Bytes :=
  if irp.byteOffset.toNat % d.ss = 0 then readSectors d (irp.byteOffset / d.sectorSize.toUInt64) irp.length.toNat
  else .error (.io "volume I/O failed")

def lowerWrite (d : Device) (irp : Irp) : VckResult Unit × Device :=
  if irp.byteOffset.toNat % d.ss = 0 then writeSectors d (irp.byteOffset / d.sectorSize.toUInt64) irp.buffer
  else (.error (.io "volume I/O failed"), d)

section Handle

variable {σ : Type}

/-- `ZwReadFile` from kernel mode, through the filter of a volume that has no cipher yet and so no thread. -/
def KernelVolumeIo.readSectors (io : KernelVolumeIo) (v : AttachedVolume σ) (d : Device) (lba : UInt64) (len : Nat) :
    VckResult Bytes :=
  match runSync io.sectorSize lba len with
  | .error e => .error e
  | .ok none => .ok []
  | .ok (some byteOffset) =>
    match handleFilterIrp ⟨some v, false⟩ 0 (.read (request byteOffset (List.replicate len 0))) with
    | .passThrough (.read irp) =>
      match lowerRead d irp with
      | .ok out => .ok out
      | .error _ => .error (.io "volume I/O failed")
    | _ => .error (.io "volume I/O failed")

/-- `ZwWriteFile` likewise. -/
def KernelVolumeIo.writeSectors (io : KernelVolumeIo) (v : AttachedVolume σ) (d : Device) (lba : UInt64)
    (buf : Bytes) : VckResult Unit × Device :=
  match runSync io.sectorSize lba buf.length with
  | .error e => (.error e, d)
  | .ok none => (.ok (), d)
  | .ok (some byteOffset) =>
    match handleFilterIrp ⟨some v, false⟩ 0 (.write (request byteOffset buf)) with
    | .passThrough (.write irp) =>
      match lowerWrite d irp with
      | (.ok _, d') => (.ok (), d')
      | (.error _, d') => (.error (.io "volume I/O failed"), d')
    | _ => (.error (.io "volume I/O failed"), d)

/-- The eight bytes that the length query returns. -/
def lengthInfo (v : AttachedVolume σ) (allocated : Bool) (d : Device) : Bytes :=
  let answer := leBytes 8 (d.sectors * d.ss)
  match handleFilterIrp ⟨some v, false⟩ 0 (.deviceControl ioctlDiskGetLengthInfo allocated) with
  | .sizeQuery dataBytes => (sizeIoctlCompletion dataBytes ioctlDiskGetLengthInfo true 8 (some answer)).getD answer
  | _ => answer

theorem length_lengthInfo (v : AttachedVolume σ) (allocated : Bool) (d : Device) :
    (lengthInfo v allocated d).length = 8 := by
  cases allocated with
  | false => exact length_leBytes 8 _
  | true =>
    change (copyAt (leBytes 8 _) 0 (leBytes 8 _)).length = 8
    rw [length_copyAt (by simp), length_leBytes]

theorem queried_addressable (v : AttachedVolume σ) (allocated : Bool) (d : Device) :
    (UInt64.ofNat (leNat (lengthInfo v allocated d) / d.ss)).toNat * d.sectorSize.toNat < 2 ^ 64 := by
  have hlt := leNat_lt (lengthInfo v allocated d)
  rw [length_lengthInfo] at hlt
  have hdiv := Nat.div_mul_le_self (leNat (lengthInfo v allocated d)) d.ss
  have hle := Nat.mod_le (leNat (lengthInfo v allocated d) / d.ss) (2 ^ 64)
  rw [UInt64.toNat_ofNat']
  exact lt_of_le_of_lt (Nat.mul_le_mul_right _ hle) (lt_of_le_of_lt hdiv hlt)

/-- `open_query`; the sector size passes the filter unchanged. -/
def openQuery (v : AttachedVolume σ) (allocated : Bool) (d : Device) : VckResult KernelVolumeIo :=
  if d.sectorSize = 0 then .error (.io "volume reported zero sector size")
  else
    .ok
      { sectorSize := d.sectorSize
        totalSectors := UInt64.ofNat (leNat (lengthInfo v allocated d) / d.ss)
        addressable := queried_addressable v allocated d }

/-- The disk as the handle shows it, sector by sector. -/
def KernelVolumeIo.device (io : KernelVolumeIo) (v : AttachedVolume σ) (d : Device) : Device where
  sectorSize := io.sectorSize
  totalSectors := io.totalSectors
  bytes a :=
    match io.readSectors v d (UInt64.ofNat (a / io.sectorSize.toNat)) io.sectorSize.toNat with
    | .ok out => out.getD (a % io.sectorSize.toNat) 0
    | .error _ => 0
  readFault lba := !(io.readSectors v d (UInt64.ofNat lba) io.sectorSize.toNat).isOk
  writeFault lba := !(io.writeSectors v d (UInt64.ofNat lba) (List.replicate io.sectorSize.toNat 0)).1.isOk
  random := d.random
  draws := d.draws
  addressable := io.addressable

end Handle

/-! ## The two callers -/

/-- The volume that PREPARE binds before the metadata is there. -/
def provisionalVolume (sectorSize : UInt32) (layout : ReplicaLayout) : AttachedVolume Unit where
  sectorSize := sectorSize
  ioConfig := .encrypted none layout.offsetSector ⟨0, layout.dataSectors⟩
  encryption := .new layout.offsetSector ⟨0, layout.dataSectors⟩
  offsetStore := ()
  encryptedBoundary := 0
  cipherCalls := 0

/-- The sector that step 6 writes: the block, padded with zeros. -/
def sectorBuf (sectorSize : UInt32) (metadataBlock : Bytes) : Bytes :=
  copyAt (List.replicate sectorSize.toNat 0) 0 (metadataBlock.take (min 512 sectorSize.toNat))

/-- The loop of step 6 of `handle_jvck_prepare`. -/
def writeReplicas (io : KernelVolumeIo) (v : AttachedVolume Unit) (buf : Bytes) (d : Device) :
    List UInt64 → VckResult Unit × Device
  | [] => (.ok (), d)
  | lba :: lbas =>
    match io.writeSectors v d lba buf with
    | (.ok (), d') => writeReplicas io v buf d' lbas
    | (.error e, d') => (.error e, d')

/-- `handle_jvck_attach` up to `on_attach`, above the provisional volume. -/
def attachProbe (E : Env) (v : AttachedVolume Unit) (allocated : Bool) (d : Device) :
    VckResult (UInt64 × EncryptedOffset × JvckMetadataStore) := do
  let probeIo ← openQuery v allocated d
  onAttach E (probeIo.device v d)

/-! ## Addressing the right sectors -/

/-- A write for sector `x` puts the buffer there and nowhere else, or fails because that sector cannot be written. -/
def PutsInPlace (d : Device) (x : Nat) (buf : Bytes) : VckResult Unit × Device → Prop
  | (.ok _, d') => Frame (· = x) d d' ∧ d'.sector x = buf
  | (.error _, d') => d.writeFault x = true ∧ d' = d

/-- Every write that the loop issues does, on the disk that the writes before it have left. -/
def WritesInPlace (io : KernelVolumeIo) (v : AttachedVolume Unit) (buf : Bytes) (d : Device) (lbas : List UInt64) :
    Prop :=
  ∀ done lba rest d', lbas = done ++ lba :: rest → writeReplicas io v buf d done = (.ok (), d') →
    PutsInPlace d' lba.toNat buf (io.writeSectors v d' lba buf)

/-- Step 6 puts the metadata block of a request into the replica sectors of the volume and changes nothing else. -/
def PrepareInPlace (sectorSize : UInt32) (totalSectors : UInt64) (o : JvckMetadataOptions) (metadataBlock : Bytes) :
    Prop :=
  ∀ (io : KernelVolumeIo) (d : Device), io.sectorSize = sectorSize → io.totalSectors = totalSectors →
    d.sectorSize = sectorSize → d.totalSectors = totalSectors →
    WritesInPlace io (provisionalVolume sectorSize (replicaLayout sectorSize totalSectors o))
      (sectorBuf sectorSize metadataBlock) d (replicaLayout sectorSize totalSectors o).replicaLbas

/-- The raw device holds a sealed block of one suite in every replica sector of the layout. -/
structure ValidMetadata (P : Primitives) (K : Suite) (o : JvckMetadataOptions) (L : Layout) (d : Device) : Prop where
  codec : K.codec = jvckCbcCodec P
  options : JvckMetadataReader.optionsOf K.header = o
  layout : L.Of d.sectorSize d.totalSectors o
  count : 0 < L.count
  intact : ∃ content : Nat → UInt64 × VolumeState,
    ∀ i, i < L.count → K.Intact d (L.metaLba i) (content i).1 (content i).2

/-- ATTACH unseals the metadata through the filter and gets the geometry of its layout. -/
def AttachFinds (E : Env) (K : Suite) (g : Geometry) (v : AttachedVolume Unit) (allocated : Bool) (d : Device) : Prop :=
  ∃ boundary store, attachProbe E v allocated d = .ok (g.offsetSector, ⟨boundary, g.dataSectors⟩, store) ∧
    store.secrets = K.secrets

section Routing

variable {v : AttachedVolume Unit} {io : KernelVolumeIo} {d : Device} {lba : UInt64} {buf : Bytes}

/-- The request for whole sectors that fits the 64-bit range. -/
theorem toNat_request {x : Nat} (hlt : x < 2 ^ 64) (hlen : buf.length < 2 ^ 32) :
    (request x buf).byteOffset.toNat = x ∧ (request x buf).length.toNat = buf.length :=
  ⟨UInt64.toNat_ofNat_of_lt' hlt, UInt32.toNat_ofNat_of_lt' hlen⟩

theorem runSync_some (hio : io.sectorSize = d.sectorSize) {len : Nat} (hpos : 0 < len) (hlen : len < 2 ^ 32)
    (hlt : lba.toNat * d.ss < 2 ^ 64) : runSync io.sectorSize lba len = .ok (some (lba.toNat * d.ss)) := by
  rw [hio, runSync_of_lt len hlt, if_neg (Nat.ne_of_gt hpos), if_neg (Nat.not_le.mpr hlen)]
  rfl

/-- The handle's write is a write of the raw device, behind the shift. -/
theorem writeSectors_eq (v : AttachedVolume Unit) (hio : io.sectorSize = d.sectorSize) (hpos : 0 < buf.length)
    (hlen : buf.length < 2 ^ 32) (hlt : lba.toNat * d.ss < 2 ^ 64) :
    io.writeSectors v d lba buf =
      match lowerWrite d (shiftOffset v (request (lba.toNat * d.ss) buf)) with
      | (.ok _, d') => (.ok (), d')
      | (.error _, d') => (.error (.io "volume I/O failed"), d') := by
  rw [KernelVolumeIo.writeSectors, runSync_some hio hpos hlen hlt]
  simp [handleFilterIrp, handleReadWrite]

/-- So is its read of one sector. -/
theorem readSector_eq (v : AttachedVolume Unit) (hio : io.sectorSize = d.sectorSize) (hs : 0 < d.ss) {x : Nat}
    (hx : x < d.sectors) :
    ∃ irp : Irp, irp.byteOffset.toNat = x * d.ss ∧ irp.length.toNat = d.ss ∧
      io.readSectors v d (UInt64.ofNat x) io.sectorSize.toNat =
        match lowerRead d (shiftOffset v irp) with
        | .ok out => .ok out
        | .error _ => .error (.io "volume I/O failed") := by
  have hsize : io.sectorSize.toNat = d.ss := congrArg UInt32.toNat hio
  have hlen : d.ss < 2 ^ 32 := d.sectorSize.toNat_lt
  have hof : (UInt64.ofNat x).toNat = x := UInt64.toNat_ofNat_of_lt' (hx.trans d.totalSectors.toNat_lt)
  have hlt : x * d.ss < 2 ^ 64 := lt_of_le_of_lt (Nat.mul_le_mul_right _ (Nat.le_of_lt hx)) d.addressable
  have hrun := runSync_some hio hs hlen (hof.symm ▸ hlt)
  rw [hof] at hrun
  have hbuf : (List.replicate d.ss 0 : Bytes).length = d.ss := List.length_replicate
  obtain ⟨hoff, hl⟩ := toNat_request hlt (hbuf.trans_lt hlen)
  refine ⟨_, hoff, hl.trans hbuf, ?_⟩
  rw [KernelVolumeIo.readSectors, hsize, hrun]
  simp [handleFilterIrp, handleReadWrite]

theorem shiftOffset_zero (h : v.offsetSector = 0) (irp : Irp) : shiftOffset v irp = irp := by
  have hz : saturatingMul 0 v.sectorSize.toUInt64 = 0 := by
    apply UInt64.toNat_inj.mp
    rw [toNat_saturatingMul]
    simp
  rw [shiftOffset, h, hz]
  rfl

theorem shiftOffset_buffer (v : AttachedVolume Unit) (irp : Irp) : (shiftOffset v irp).buffer = irp.buffer := by
  rw [shiftOffset]
  split
  · rfl
  · rfl

/-- A request that starts on a sector boundary. -/
theorem toNat_sector {irp : Irp} (hs : 0 < d.ss) {x : Nat} (h : irp.byteOffset.toNat = x * d.ss) :
    irp.byteOffset.toNat % d.ss = 0 ∧ (irp.byteOffset / d.sectorSize.toUInt64).toNat = x := by
  constructor
  · rw [h, Nat.mul_mod_left]
  · rw [UInt64.toNat_div, UInt32.toNat_toUInt64, h]
    exact Nat.mul_div_cancel _ hs

/-- Without a header the write arrives where it was meant to. -/
theorem writeSectors_unshifted (h : v.offsetSector = 0) (hio : io.sectorSize = d.sectorSize) (hs : 0 < d.ss)
    (hl : buf.length = d.ss) (hlba : lba.toNat < d.sectors) :
    PutsInPlace d lba.toNat buf (io.writeSectors v d lba buf) := by
  have hss : d.ss < 2 ^ 32 := d.sectorSize.toNat_lt
  have hlt : lba.toNat * d.ss < 2 ^ 64 :=
    lt_of_le_of_lt (Nat.mul_le_mul_right _ (Nat.le_of_lt hlba)) d.addressable
  have hpos : 0 < buf.length := by omega
  have hlen : buf.length < 2 ^ 32 := by omega
  obtain ⟨hmod, hx⟩ := toNat_sector hs (toNat_request hlt hlen).1
  have hx' : (request (lba.toNat * d.ss) buf).byteOffset / d.sectorSize.toUInt64 = lba := UInt64.toNat_inj.mp hx
  have hbuf : (request (lba.toNat * d.ss) buf).buffer = buf := rfl
  rw [writeSectors_eq v hio hpos hlen hlt, shiftOffset_zero h, lowerWrite, if_pos hmod, hx', hbuf]
  have hl' : buf.length = 1 * d.ss := by rw [hl, Nat.one_mul]
  by_cases hr : Reachable d d.writeFault lba.toNat 1
  · have hok := writeSectors_of_reachable hs hl' hr
    have hframe := writeSectors_frame d lba hl'
    have hsector := sector_writeSectors hl' hok lba.toNat
    rw [hok] at hframe
    rw [if_pos (by omega), Nat.sub_self, Nat.zero_mul, slice_zero, List.take_of_length_le (Nat.le_of_eq hl)] at hsector
    rw [hok]
    exact ⟨hframe.mono fun i hi => Nat.le_antisymm (Nat.le_of_lt_succ hi.2) hi.1, hsector⟩
  · rw [writeSectors_of_not_reachable hs hl' hr]
    refine ⟨?_, rfl⟩
    by_contra hgood
    apply hr
    refine ⟨by omega, ?_⟩
    intro i hi
    obtain rfl : i = 0 := by omega
    simpa using hgood

/-- With a header it does not: sector 0 keeps its content. -/
theorem writeSectors_shifted (h : v.offsetSector ≠ 0) (hv : v.sectorSize = d.sectorSize)
    (hio : io.sectorSize = d.sectorSize) (hs : 0 < d.ss) (hl : buf.length = d.ss) (hhealthy : Healthy d)
    (hold : d.sector 0 ≠ buf) : ¬ PutsInPlace d 0 buf (io.writeSectors v d 0 buf) := by
  have hss : d.ss < 2 ^ 32 := d.sectorSize.toNat_lt
  have hzero : (0 : UInt64).toNat = 0 := rfl
  have hpos : 0 < buf.length := by omega
  have hlen : buf.length < 2 ^ 32 := by omega
  have hlt : (0 : UInt64).toNat * d.ss < 2 ^ 64 := by
    rw [hzero, Nat.zero_mul]
    decide
  have hw := writeSectors_eq v hio hpos hlen hlt
  have hoff := (toNat_request hlt hlen).1
  have hb : (request ((0 : UInt64).toNat * d.ss) buf).buffer = buf := rfl
  generalize request ((0 : UInt64).toNat * d.ss) buf = irp at hw hoff hb
  have hbytes := toNat_shiftOffset v irp
  have hoffset : 0 < v.offsetSector.toNat := Nat.pos_of_ne_zero fun h₀ => h (UInt64.toNat_inj.mp h₀)
  have hshift : d.ss ≤ (shiftOffset v irp).byteOffset.toNat := by
    have hmul : d.ss ≤ v.offsetSector.toNat * v.sectorSize.toNat := by
      rw [hv]
      exact Nat.le_mul_of_pos_left _ hoffset
    rw [hoff, hzero, Nat.zero_mul, Nat.zero_add, Nat.mod_eq_of_lt (by omega)] at hbytes
    omega
  have hfirst : 0 < ((shiftOffset v irp).byteOffset / d.sectorSize.toUInt64).toNat := by
    rw [UInt64.toNat_div, UInt32.toNat_toUInt64]
    exact Nat.div_pos hshift hs
  have hl' : buf.length = 1 * d.ss := by rw [hl, Nat.one_mul]
  rw [hw]
  cases hlower : lowerWrite d (shiftOffset v irp) with
  | mk r d' =>
    rw [lowerWrite, shiftOffset_buffer, hb] at hlower
    cases r with
    | error e =>
      rintro ⟨hfault, -⟩
      rw [hhealthy.writeFault] at hfault
      cases hfault
    | ok u =>
      rintro ⟨-, hput⟩
      split at hlower
      · have hsector := sector_writeSectors hl' hlower 0
        rw [if_neg (by omega)] at hsector
        exact hold (hsector.symm.trans hput)
      · cases (Prod.mk.inj hlower).1

/-- Without a header the loop changes the sectors it was given only. -/
theorem writeReplicas_frame (h : v.offsetSector = 0) (hio : io.sectorSize = d.sectorSize) (hs : 0 < d.ss)
    (hl : buf.length = d.ss) {lbas : List UInt64} (hlbas : ∀ lba ∈ lbas, lba.toNat < d.sectors) {d' : Device}
    (hw : writeReplicas io v buf d lbas = (.ok (), d')) : Frame (fun l => ∃ lba ∈ lbas, l = lba.toNat) d d' := by
  induction lbas generalizing d with
  | nil =>
    obtain rfl := (Prod.mk.inj hw).2
    exact .refl _ _
  | cons lba lbas ih =>
    have hput := writeSectors_unshifted h hio hs hl (hlbas lba (List.mem_cons_self ..))
    rw [writeReplicas] at hw
    cases hstep : io.writeSectors v d lba buf with
    | mk r d₁ =>
      rw [hstep] at hput hw
      cases r with
      | error e => cases (Prod.mk.inj hw).1
      | ok u =>
        have hframe : Frame (· = lba.toNat) d d₁ := hput.1
        have hrest := ih (hio.trans hframe.sectorSize.symm) (hframe.ss ▸ hs) (hl.trans hframe.ss.symm)
          (fun x hx => hframe.sectors ▸ hlbas x (List.mem_cons_of_mem _ hx)) hw
        apply Frame.trans (hframe.mono _) (hrest.mono _)
        · exact fun l hl => ⟨lba, List.mem_cons_self .., hl⟩
        · rintro l ⟨x, hx, rfl⟩
          exact ⟨x, List.mem_cons_of_mem _ hx, rfl⟩

/-- Without a header all writes of the loop arrive. -/
theorem writesInPlace_unshifted (h : v.offsetSector = 0) (hio : io.sectorSize = d.sectorSize) (hs : 0 < d.ss)
    (hl : buf.length = d.ss) {lbas : List UInt64} (hlbas : ∀ lba ∈ lbas, lba.toNat < d.sectors) :
    WritesInPlace io v buf d lbas := by
  rintro done lba rest d' rfl hw
  have hframe := writeReplicas_frame h hio hs hl (fun x hx => hlbas x (List.mem_append_left _ hx)) hw
  refine writeSectors_unshifted h (hio.trans hframe.sectorSize.symm) (hframe.ss ▸ hs) (hl.trans hframe.ss.symm) ?_
  rw [hframe.sectors]
  exact hlbas lba (List.mem_append_right _ (List.mem_cons_self ..))

end Routing

section Prepare

variable {sectorSize : UInt32} {totalSectors : UInt64} {o : JvckMetadataOptions} {g : Geometry}

theorem length_sectorBuf (sectorSize : UInt32) (metadataBlock : Bytes) :
    (sectorBuf sectorSize metadataBlock).length = sectorSize.toNat := by
  rw [sectorBuf, length_copyAt, List.length_replicate]
  rw [List.length_take, List.length_replicate]
  omega

/-- The disk whose bytes are all the same. -/
def filled (sectorSize : UInt32) (totalSectors : UInt64) (h : totalSectors.toNat * sectorSize.toNat < 2 ^ 64)
    (c : UInt8) : Device :=
  { blank sectorSize totalSectors h with bytes := fun _ => c }

theorem sector_filled (h : totalSectors.toNat * sectorSize.toNat < 2 ^ 64) (hs : 0 < sectorSize.toNat) {buf : Bytes}
    (hl : buf.length = sectorSize.toNat) : (filled sectorSize totalSectors h (buf.headD 0 + 1)).sector 0 ≠ buf := by
  cases buf with
  | nil =>
    rw [List.length_nil] at hl
    omega
  | cons b rest =>
    intro heq
    have hhead := congrArg (fun l => l[0]?) heq
    have hread : ((filled sectorSize totalSectors h (b + 1)).sector 0)[0]? = some (b + 1) := by
      have hrange : (List.range (filled sectorSize totalSectors h (b + 1)).ss)[0]? = some 0 := List.getElem?_range hs
      rw [Device.sector, load, List.getElem?_map, hrange]
      rfl
    have hne : b + 1 = b := Option.some.inj (hread.symm.trans hhead)
    simp at hne

/-- The replica sectors of a layout without headers lie on the volume. -/
theorem replicaLbas_lt (hg : computeGeometry sectorSize totalSectors o = .ok g) (h : o.useHeader = 0) :
    ∀ lba ∈ (replicaLayout sectorSize totalSectors o).replicaLbas, lba.toNat < totalSectors.toNat := by
  have hcounts : o.useHeader.toNat + o.useFooter.toNat < 2 ^ 32 := by
    rw [h]
    have := o.useFooter.toNat_lt
    simpa using this
  obtain ⟨L, hL, -⟩ := (computeGeometry_ok_iff hcounts).mp hg
  rw [replicaLbas_eq]
  intro lba hmem
  exact hL.lt_of_mem_metadataSectorLbas hmem

/-- The first replica sector of a layout with headers is sector 0. -/
theorem replicaLbas_cons (sectorSize : UInt32) (totalSectors : UInt64) (h : o.useHeader ≠ 0) :
    ∃ lbas, (replicaLayout sectorSize totalSectors o).replicaLbas = 0 :: lbas := by
  obtain ⟨n, hn⟩ := Nat.exists_eq_succ_of_ne_zero fun h₀ => h (UInt32.toNat_inj.mp h₀)
  rw [replicaLbas_eq, metadataSectorLbas, hn, List.range_succ_eq_map, List.map_cons, List.cons_append]
  have hfirst : UInt64.ofNat 0 * replicaSectors o.metadataSize sectorSize = 0 := by
    apply UInt64.toNat_inj.mp
    simp
  rw [hfirst]
  exact ⟨_, rfl⟩

theorem toNat_provisionalOffset (totalSectors : UInt64) (o : JvckMetadataOptions) (hs : 512 ≤ sectorSize.toNat) :
    (provisionalVolume sectorSize (replicaLayout sectorSize totalSectors o)).offsetSector.toNat =
      o.useHeader.toNat * (o.metadataSize.toNat / sectorSize.toNat) :=
  toNat_count_mul hs _

/-- The block of PREPARE arrives in the replica sectors exactly when there is no header replica. -/
theorem prepareInPlace_iff (hg : computeGeometry sectorSize totalSectors o = .ok g)
    (haddr : totalSectors.toNat * sectorSize.toNat < 2 ^ 64) (metadataBlock : Bytes) :
    PrepareInPlace sectorSize totalSectors o metadataBlock ↔ o.useHeader = 0 := by
  obtain ⟨hs, hreplica, -⟩ := computeGeometry_inv hg
  have hoff := toNat_provisionalOffset totalSectors o hs
  constructor
  · intro h
    by_contra hne
    obtain ⟨lbas, hlbas⟩ := replicaLbas_cons sectorSize totalSectors hne
    have hpos : 0 < sectorSize.toNat := by omega
    have hlen := length_sectorBuf sectorSize metadataBlock
    have hold := sector_filled haddr hpos hlen
    have hhealthy : Healthy (filled sectorSize totalSectors haddr ((sectorBuf sectorSize metadataBlock).headD 0 + 1)) :=
      ⟨fun _ => rfl, fun _ => rfl, fun _ => ⟨_, rfl⟩⟩
    have hshape : (filled sectorSize totalSectors haddr ((sectorBuf sectorSize metadataBlock).headD 0 + 1)).ss =
      sectorSize.toNat := rfl
    have hin := h ⟨sectorSize, totalSectors, haddr⟩
      (filled sectorSize totalSectors haddr ((sectorBuf sectorSize metadataBlock).headD 0 + 1)) rfl rfl rfl rfl
    rw [hlbas] at hin
    generalize filled sectorSize totalSectors haddr ((sectorBuf sectorSize metadataBlock).headD 0 + 1) = d at *
    refine writeSectors_shifted ?_ ?_ ?_ (hpos.trans_eq hshape.symm) (hlen.trans hshape.symm) hhealthy hold (hin [] 0 lbas d rfl rfl)
    · intro hzero
      rw [hzero] at hoff
      have hheader : 0 < o.useHeader.toNat := Nat.pos_of_ne_zero fun h₀ => hne (UInt32.toNat_inj.mp h₀)
      have := Nat.mul_pos hheader hreplica
      change 0 = _ at hoff
      omega
    · exact UInt32.toNat_inj.mp hshape.symm
    · exact UInt32.toNat_inj.mp hshape.symm
  · intro hzero io d hio hiot hd hdt
    have hsector : 0 < d.ss := by
      rw [Device.ss, hd]
      omega
    apply writesInPlace_unshifted _ (hio.trans hd.symm) hsector
    · rw [length_sectorBuf, Device.ss, hd]
    · intro lba hmem
      rw [Device.sectors, hdt]
      exact replicaLbas_lt hg hzero lba hmem
    · apply UInt64.toNat_inj.mp
      rw [hoff, hzero]
      exact Nat.zero_mul _

end Prepare

section Probe

variable {v : AttachedVolume Unit} {io : KernelVolumeIo} {d : Device}

theorem leNat_lengthInfo_true (v : AttachedVolume Unit) (d : Device) :
    leNat (lengthInfo v true d) = (reportedSize v).toNat := by
  change leNat (copyAt (leBytes 8 _) 0 (leBytes 8 (reportedSize v).toNat)) = _
  rw [copyAt_zero_of_length_le (by simp), leNat_leBytes_of_lt (UInt64.toNat_lt _)]

theorem leNat_lengthInfo_false (v : AttachedVolume Unit) (d : Device) :
    leNat (lengthInfo v false d) = d.sectors * d.ss :=
  leNat_leBytes_of_lt d.addressable

/-- The probe takes the data region for the volume, unless the filter could not answer. -/
theorem openQuery_ok (hs : 0 < d.ss) (hv : v.sectorSize = d.sectorSize) (hdata : v.dataSectors.toNat ≤ d.sectors)
    (allocated : Bool) :
    ∃ io, openQuery v allocated d = .ok io ∧ io.sectorSize = d.sectorSize ∧
      io.totalSectors.toNat = if allocated then v.dataSectors.toNat else d.sectors := by
  have hne : d.sectorSize ≠ 0 := by
    intro h
    rw [Device.ss, h] at hs
    exact absurd hs (by decide)
  rw [openQuery, if_neg hne]
  refine ⟨_, rfl, rfl, ?_⟩
  have haddr : d.sectors * d.ss < 2 ^ 64 := d.addressable
  have hbytes : v.dataSectors.toNat * v.sectorSize.toNat ≤ d.sectors * d.ss := by
    rw [hv]
    exact Nat.mul_le_mul_right _ hdata
  have hsize : v.sectorSize.toNat = d.ss := congrArg UInt32.toNat hv
  have hsectors : d.sectors < 2 ^ 64 := d.totalSectors.toNat_lt
  cases allocated with
  | true =>
    simp only [leNat_lengthInfo_true, toNat_reportedSize, if_true]
    rw [Nat.min_eq_left (by omega), hsize, Nat.mul_div_cancel _ hs, UInt64.toNat_ofNat', Nat.mod_eq_of_lt (by omega)]
  | false =>
    simp only [leNat_lengthInfo_false, Bool.false_eq_true, if_false]
    rw [Nat.mul_div_cancel _ hs, UInt64.toNat_ofNat', Nat.mod_eq_of_lt hsectors]

/-- The disk that the handle shows has the sectors that the handle reads. -/
theorem sector_device {lba : Nat} {out : Bytes} (hs : 0 < io.sectorSize.toNat)
    (hread : io.readSectors v d (UInt64.ofNat lba) io.sectorSize.toNat = .ok out)
    (hlen : out.length = io.sectorSize.toNat) :
    (io.device v d).readFault lba = false ∧ (io.device v d).sector lba = out := by
  constructor
  · change (!(io.readSectors v d (UInt64.ofNat lba) io.sectorSize.toNat).isOk) = false
    rw [hread]
    rfl
  · change load (io.device v d).bytes (lba * io.sectorSize.toNat) io.sectorSize.toNat = out
    apply List.ext_getElem
    · rw [length_load, hlen]
    · intro i hi hi'
      rw [length_load] at hi
      have hdiv : (lba * io.sectorSize.toNat + i) / io.sectorSize.toNat = lba := by
        rw [Nat.mul_comm, Nat.mul_add_div hs, Nat.div_eq_of_lt hi, Nat.add_zero]
      have hmod : (lba * io.sectorSize.toNat + i) % io.sectorSize.toNat = i := by
        rw [Nat.mul_comm, Nat.mul_add_mod, Nat.mod_eq_of_lt hi]
      simp only [load, List.getElem_map, List.getElem_range, KernelVolumeIo.device, hdiv, hmod, hread]
      rw [List.getD_eq_getElem _ _ hi']

/-- Without a header the handle reads the sectors of the raw device. -/
theorem readSectors_unshifted (h : v.offsetSector = 0) (hio : io.sectorSize = d.sectorSize) (hs : 0 < d.ss)
    {lba : Nat} (hlba : lba < d.sectors) (hgood : d.readFault lba = false) :
    io.readSectors v d (UInt64.ofNat lba) io.sectorSize.toNat = .ok (d.sector lba) := by
  obtain ⟨irp, hoff, hl, hr⟩ := readSector_eq v hio hs hlba
  obtain ⟨hmod, hx⟩ := toNat_sector hs hoff
  have hreach : Reachable d d.readFault (irp.byteOffset / d.sectorSize.toUInt64).toNat 1 := by
    rw [hx]
    refine ⟨by omega, ?_⟩
    intro i hi
    obtain rfl : i = 0 := by omega
    exact hgood
  have hlower := readSectors_of_reachable hs hreach
  rw [Nat.one_mul, hx] at hlower
  rw [hr, shiftOffset_zero h, lowerRead, if_pos hmod, hl, hlower]
  simp [Device.area]

/-- With a header the last sector of the volume is out of reach. -/
theorem readSectors_past_end (io : KernelVolumeIo) (hpos : 0 < v.offsetSector.toNat) (hoff : v.offsetSector.toNat ≤ d.sectors)
    (hv : v.sectorSize = d.sectorSize) (hio : io.sectorSize = d.sectorSize) (hs : 0 < d.ss)
    (hlen : d.sectors * d.ss < 2 ^ 63) (hn : 0 < d.sectors) :
    (io.readSectors v d (UInt64.ofNat (d.sectors - 1)) io.sectorSize.toNat).isOk = false := by
  have hlast : (d.sectors - 1) * d.ss ≤ d.sectors * d.ss := Nat.mul_le_mul_right _ (Nat.sub_le _ _)
  have hshifted : v.offsetSector.toNat * v.sectorSize.toNat ≤ d.sectors * d.ss := by
    rw [hv]
    exact Nat.mul_le_mul_right _ hoff
  obtain ⟨irp, hstart, hl, hr⟩ := readSector_eq v hio hs (Nat.sub_lt hn Nat.one_pos)
  have hbytes : (shiftOffset v irp).byteOffset.toNat = (v.offsetSector.toNat + (d.sectors - 1)) * d.ss := by
    rw [toNat_shiftOffset_of_lt (by omega), hstart, Nat.add_mul, hv]
    rfl
  obtain ⟨hmod, hx⟩ := toNat_sector hs hbytes
  have hreach : ¬ Reachable d d.readFault ((shiftOffset v irp).byteOffset / d.sectorSize.toUInt64).toNat 1 := by
    rw [hx]
    intro h
    have := h.1
    omega
  have hlower := readSectors_of_not_reachable hs hreach
  rw [Nat.one_mul] at hlower
  rw [hr, lowerRead, if_pos hmod, (shiftOffset_fields v irp).1, hl, hlower]
  rfl

end Probe

section Attach

variable {E : Env} {K : Suite} {o : JvckMetadataOptions} {L : Layout} {d : Device}

/-- A store always has a replica, so its data region is smaller than the volume it was opened on. -/
theorem onAttach_dataSectors_lt {offsetSector : UInt64} {encryptedOffset : EncryptedOffset} {store : JvckMetadataStore}
    (h : onAttach E d = .ok (offsetSector, encryptedOffset, store)) : encryptedOffset.totalSectors.toNat < d.sectors := by
  obtain ⟨hopen, -, sector, -, rfl⟩ := onAttach_ok_iff.mp h
  obtain ⟨-, -, L, hL, hon⟩ := openStore_on hopen
  obtain ⟨r, -, hinto, hplace, -⟩ := openStore_reader hopen
  obtain ⟨codec, u, hfind, -⟩ := intoStore_inv hinto
  have hcount : 0 < L.count := by
    apply Nat.pos_of_ne_zero
    intro hzero
    have hlbas := hon.lbas
    rw [hplace, hzero] at hlbas
    rw [hlbas] at hfind
    cases hfind
  have hconsumed := Nat.mul_pos hcount L.replica_pos
  change store.geometry.dataSectors.toNat < d.sectors
  rw [toNat_dataSectors hon, Layout.dataCount, hon.total]
  have hfits := L.fits
  have htotal := hon.total
  omega

/-- Phase A gives up when it cannot read the last sector. -/
theorem onAttach_last_unreadable (h : d.readFault (d.sectors - 1) = true)
    (offsetSector : UInt64) (encryptedOffset : EncryptedOffset) (store : JvckMetadataStore) :
    onAttach E d ≠ .ok (offsetSector, encryptedOffset, store) := by
  intro hok
  obtain ⟨hopen, -⟩ := onAttach_ok_iff.mp hok
  obtain ⟨r, hreader, -⟩ := openStore_reader hopen
  obtain ⟨hs, hn, -⟩ := openReader_inv hreader
  have hgood := (readable_of_openReader hs hn hreader).1
  rw [h] at hgood
  cases hgood

/-- On a disk without headers that holds valid metadata `on_attach` unseals it. -/
theorem onAttach_of_valid (hvalid : ValidMetadata E.primitives K o L d) (hvmk : K.vmk = E.vmk)
    (hfooters : 0 < L.footers) :
    ∃ boundary store, onAttach E d =
        .ok ((L.geometry d.sectorSize).offsetSector, ⟨boundary, (L.geometry d.sectorSize).dataSectors⟩, store) ∧
      store.secrets = K.secrets := by
  have hc : LawfulCodec E.primitives K.codec := by
    rw [hvalid.codec]
    exact jvckCbcCodec_lawful _
  have hL : L.Of d.sectorSize d.totalSectors (JvckMetadataReader.optionsOf K.header) := by
    rw [hvalid.options]
    exact hvalid.layout
  obtain ⟨content, hintact⟩ := hvalid.intact
  have hholds : K.Holds E.primitives L d fun i => some (content i) := fun i hi => hintact i hi
  have hlast : K.Intact d (d.sectors - 1) (content (L.count - 1)).1 (content (L.count - 1)).2 := by
    have hi := hintact (L.count - 1) (Nat.sub_lt hvalid.count Nat.one_pos)
    rw [L.metaLba_last hfooters] at hi
    rwa [show d.sectors = L.total from hL.total.symm]
  have hon : On (readerOf K.header L d).toPlacement L d := readerOf_on hL
  have hfirst : (List.range L.count).findSome? (fun i => some (content i)) = some (content 0) := by
    obtain ⟨n, hn⟩ := Nat.exists_eq_succ_of_ne_zero (Nat.ne_of_gt hvalid.count)
    rw [hn, List.range_succ_eq_map]
    rfl
  have hsurvive : survivors (fun i => some (content i)) L.count ≠ [] := by
    have hmem : (content 0).1 ∈ survivors (fun i => some (content i)) L.count :=
      List.mem_filterMap.mpr ⟨0, List.mem_range.mpr hvalid.count, rfl⟩
    exact List.ne_nil_of_mem hmem
  obtain ⟨m, -, hinto⟩ := intoStore_of_holds hc hon rfl hholds hfirst
  have hopen := openReader_of_last hc hL hlast
  let store : JvckMetadataStore :=
    { toPlacement := (readerOf K.header L d).toPlacement
      vmk := K.vmk
      header := K.header
      secrets := K.secrets
      offset := m
      state := (content 0).2.asU16
      codec := K.codec }
  obtain ⟨b, hb, -⟩ := loadOffset_of_holds hc (s := store) hon rfl rfl rfl hholds hsurvive
  have hstore : JvckMetadataStore.openStore E.primitives d E.vmk = .ok store := by
    rw [JvckMetadataStore.openStore, openWith_eq hopen, ← hvalid.codec, ← hvmk]
    exact hinto
  exact ⟨b, store, onAttach_ok_iff.mpr ⟨hstore, rfl, b, hb, rfl⟩, rfl⟩

/-- Without a header, and with the length passed on as it is, the handle shows the metadata of the raw device. -/
theorem validMetadata_device {v : AttachedVolume Unit} {io : KernelVolumeIo} (h : v.offsetSector = 0)
    (hio : io.sectorSize = d.sectorSize) (htotal : io.totalSectors = d.totalSectors)
    (hvalid : ValidMetadata E.primitives K o L d) : ValidMetadata E.primitives K o L (io.device v d) := by
  have hsize : 512 ≤ d.ss := hvalid.layout.sectorSize
  have hL : L.Of (io.device v d).sectorSize (io.device v d).totalSectors o := by
    change L.Of io.sectorSize io.totalSectors o
    rw [hio, htotal]
    exact hvalid.layout
  obtain ⟨content, hintact⟩ := hvalid.intact
  refine ⟨hvalid.codec, hvalid.options, hL, hvalid.count, content, ?_⟩
  intro i hi
  obtain ⟨hgood, hseal⟩ := hintact i hi
  have hlt : L.metaLba i < d.sectors := (L.metaLba_lt_total hi).trans_eq hvalid.layout.total
  have hread := readSectors_unshifted h hio (by omega) hlt hgood
  have hioSize : io.sectorSize.toNat = d.ss := congrArg UInt32.toNat hio
  obtain ⟨hfault, hsector⟩ := sector_device (by omega) hread (by rw [length_sector, hioSize])
  refine ⟨hfault, ?_⟩
  rw [blockAt, hsector]
  exact hseal

theorem provisional_dataSectors (sectorSize : UInt32) (layout : ReplicaLayout) :
    (provisionalVolume sectorSize layout).dataSectors = layout.dataSectors := rfl

/-- Behind header replicas the filter shifts the request for the last sector past the end of the disk. -/
theorem onAttach_shifted {v : AttachedVolume Unit} {io : KernelVolumeIo} (hpos : 0 < v.offsetSector.toNat)
    (hstart : v.offsetSector.toNat < d.sectors) (hv : v.sectorSize = d.sectorSize) (hio : io.sectorSize = d.sectorSize)
    (htotal : io.totalSectors.toNat = d.sectors) (hs : 0 < d.ss) (hlen : d.sectors * d.ss < 2 ^ 63)
    (offsetSector : UInt64) (encryptedOffset : EncryptedOffset) (store : JvckMetadataStore) :
    onAttach E (io.device v d) ≠ .ok (offsetSector, encryptedOffset, store) := by
  have hpast := readSectors_past_end io hpos (Nat.le_of_lt hstart) hv hio hs hlen (by omega)
  apply onAttach_last_unreadable
  change (!(io.readSectors v d (UInt64.ofNat (io.totalSectors.toNat - 1)) io.sectorSize.toNat).isOk) = true
  rw [htotal, hpast]
  rfl

/-- Without header replicas the filter passes every request on as it is. -/
theorem onAttach_unshifted {v : AttachedVolume Unit} {io : KernelVolumeIo} (hnone : v.offsetSector = 0)
    (hio : io.sectorSize = d.sectorSize) (htotal : io.totalSectors = d.totalSectors)
    (hvalid : ValidMetadata E.primitives K o L d) (hvmk : K.vmk = E.vmk) (hzero : o.useHeader = 0) :
    ∃ boundary store, onAttach E (io.device v d) =
        .ok ((L.geometry d.sectorSize).offsetSector, ⟨boundary, (L.geometry d.sectorSize).dataSectors⟩, store) ∧
      store.secrets = K.secrets := by
  have hfooters : 0 < L.footers := by
    have hcount := hvalid.count
    have hheaders : L.headers = 0 := by
      rw [hvalid.layout.headers, hzero]
      rfl
    rw [Layout.count] at hcount
    omega
  obtain ⟨boundary, store, hok, hsecrets⟩ :=
    onAttach_of_valid (validMetadata_device hnone hio htotal hvalid) hvmk hfooters
  refine ⟨boundary, store, ?_, hsecrets⟩
  rw [hok, ← hio]
  rfl

/-- ATTACH finds the metadata of a layout exactly when there is no header replica and the filter could not answer the
length query. -/
theorem attachFinds_iff {g : Geometry} (hg : computeGeometry d.sectorSize d.totalSectors o = .ok g)
    (hlen : d.sectors * d.ss < 2 ^ 63) (hvalid : ValidMetadata E.primitives K o L d) (hvmk : K.vmk = E.vmk)
    (allocated : Bool) :
    AttachFinds E K g (provisionalVolume d.sectorSize (replicaLayout d.sectorSize d.totalSectors o)) allocated d ↔
      o.useHeader = 0 ∧ allocated = false := by
  have hsize : 512 ≤ d.ss := hvalid.layout.sectorSize
  have hgeometry : g = L.geometry d.sectorSize := Except.ok.inj (hg.symm.trans hvalid.layout.computeGeometry_eq)
  have hoff := toNat_provisionalOffset d.totalSectors o hsize
  have hdata := toNat_inlineData d.totalSectors o hsize
  have hcountData : g.dataSectors.toNat =
      (replicaLayout d.sectorSize d.totalSectors o).dataSectors.toNat := by
    obtain ⟨-, hd, -⟩ := toNat_geometry hg
    rw [hd, hdata, Nat.mod_eq_of_lt hvalid.layout.counts]
  rw [← provisional_dataSectors d.sectorSize] at hdata hcountData
  have hv : (provisionalVolume d.sectorSize (replicaLayout d.sectorSize d.totalSectors o)).sectorSize =
    d.sectorSize := rfl
  generalize provisionalVolume d.sectorSize (replicaLayout d.sectorSize d.totalSectors o) = v at *
  have hle : v.dataSectors.toNat ≤ d.sectors := by
    rw [hdata]
    exact Nat.sub_le _ _
  obtain ⟨io, hquery, hio, htotal⟩ := openQuery_ok (by omega) hv hle allocated
  have hprobe : attachProbe E v allocated d = onAttach E (io.device v d) := by
    rw [attachProbe, hquery]
    rfl
  rw [AttachFinds, hprobe]
  cases allocated with
  | true =>
    simp only [if_true] at htotal
    simp only [Bool.true_eq_false, and_false, iff_false]
    rintro ⟨boundary, store, hok, -⟩
    have hlt : g.dataSectors.toNat < io.totalSectors.toNat := onAttach_dataSectors_lt hok
    omega
  | false =>
    simp only [Bool.false_eq_true, if_false] at htotal
    simp only [and_true]
    constructor
    · rintro ⟨boundary, store, hok, -⟩
      by_contra hne
      have hheader : 0 < o.useHeader.toNat := Nat.pos_of_ne_zero fun h₀ => hne (UInt32.toNat_inj.mp h₀)
      have hreplica : 0 < o.metadataSize.toNat / d.sectorSize.toNat := (computeGeometry_inv hg).2.1
      have hstart : v.offsetSector.toNat < d.sectors := by
        have hconsumed := L.consumed_lt
        have hT : L.total = d.sectors := hvalid.layout.total
        have hheaders : L.dataStart = v.offsetSector.toNat := by
          rw [hoff, Layout.dataStart, hvalid.layout.headers, hvalid.layout.replica]
        omega
      have hpos : 0 < v.offsetSector.toNat := by
        rw [hoff]
        exact Nat.mul_pos hheader hreplica
      exact onAttach_shifted hpos hstart hv hio htotal (by omega) hlen _ _ _ hok
    · intro hzero
      have hnone : v.offsetSector = 0 := by
        apply UInt64.toNat_inj.mp
        rw [hoff, hzero]
        exact Nat.zero_mul _
      rw [hgeometry]
      exact onAttach_unshifted hnone hio (UInt64.toNat_inj.mp htotal) hvalid hvmk hzero

end Attach

/-- PREPARE and ATTACH address the metadata of an accepted layout through the filter exactly when it has no header
replica, and ATTACH only when the size is not hidden either. -/
theorem metadata_addressed_iff {sectorSize : UInt32} {totalSectors : UInt64} {o : JvckMetadataOptions} {g : Geometry}
    (hg : computeGeometry sectorSize totalSectors o = .ok g) (hlen : totalSectors.toNat * sectorSize.toNat < 2 ^ 63) :
    (∀ metadataBlock : Bytes, 512 ≤ metadataBlock.length →
      (PrepareInPlace sectorSize totalSectors o metadataBlock ↔ o.useHeader = 0)) ∧
    ∀ (E : Env) (K : Suite) (L : Layout) (d : Device) (allocated : Bool), d.sectorSize = sectorSize →
      d.totalSectors = totalSectors → ValidMetadata E.primitives K o L d → K.vmk = E.vmk →
      (AttachFinds E K g (provisionalVolume sectorSize (replicaLayout sectorSize totalSectors o)) allocated d ↔
        o.useHeader = 0 ∧ allocated = false) := by
  refine ⟨fun metadataBlock _ => prepareInPlace_iff hg (by omega) metadataBlock, ?_⟩
  rintro E K L d allocated rfl rfl hvalid hvmk
  exact attachFinds_iff hg hlen hvalid hvmk allocated

/-! ## Two footers and one header -/

section Sample

/-- A healthy disk that a store has sealed holds valid metadata. -/
theorem validMetadata_of_synced {P : Primitives} {L : Layout} {st : JvckMetadataStore} {d : Device}
    (hsync : Synced L st d) (hd : Healthy d) (hcodec : st.codec = jvckCbcCodec P) (hcount : 0 < L.count) :
    ValidMetadata P (suiteOf st) st.options L d :=
  ⟨hcodec, hsync.options.symm, hsync.on.layout, hcount, fun _ => (st.offset, VolumeState.fromU16 st.state),
    hsync.holds (P := P) fun _ _ => hd.readFault _⟩

theorem sampleDevice_valid : ValidMetadata headerEnv.primitives (suiteOf (JvckRecovery.sampleStore 5 .encrypt))
    ⟨0, 2, 131072⟩ twoFooters (JvckRecovery.sampleDevice 5 .encrypt) := by
  obtain ⟨hsync, hd⟩ := JvckRecovery.sampleDevice_synced 5 .encrypt
  exact validMetadata_of_synced hsync hd rfl (by decide)

theorem twoFooters_geometry :
    computeGeometry 512 1024 ⟨0, 2, 131072⟩ = .ok (twoFooters.geometry 512) :=
  twoFooters_of.computeGeometry_eq

theorem sampleDevice_shape : (JvckRecovery.sampleDevice 5 .encrypt).sectorSize = 512 ∧
    (JvckRecovery.sampleDevice 5 .encrypt).totalSectors = 1024 := by
  obtain ⟨hsync, -⟩ := JvckRecovery.sampleDevice_synced 5 .encrypt
  exact ⟨hsync.on.sectorSize.symm, hsync.on.volumeSectors.symm⟩

/-- With footers only the block arrives, and ATTACH finds it if the length passes the filter as it is. -/
theorem footers_addressed :
    PrepareInPlace 512 1024 ⟨0, 2, 131072⟩ (List.replicate 512 1) ∧
      AttachFinds headerEnv (suiteOf (JvckRecovery.sampleStore 5 .encrypt)) (twoFooters.geometry 512)
        (provisionalVolume 512 (replicaLayout 512 1024 ⟨0, 2, 131072⟩)) false (JvckRecovery.sampleDevice 5 .encrypt) := by
  obtain ⟨hprepare, hattach⟩ := metadata_addressed_iff twoFooters_geometry (by decide)
  have hblock : 512 ≤ (List.replicate 512 1 : Bytes).length := by
    rw [List.length_replicate]
  have hvalid := sampleDevice_valid
  obtain ⟨hsize, htotal⟩ := sampleDevice_shape
  generalize JvckRecovery.sampleDevice 5 .encrypt = d at *
  rw [hprepare _ hblock, hattach headerEnv _ twoFooters d false hsize htotal hvalid rfl]
  exact ⟨rfl, rfl, rfl⟩

/-- With a header replica the block lands in the data region; with footers only ATTACH misses metadata that is there,
as soon as the size is hidden. -/
theorem metadata_misaddressed :
    ¬ PrepareInPlace 512 1024 ⟨1, 0, 131072⟩ (List.replicate 512 1) ∧
      ValidMetadata headerEnv.primitives (suiteOf (JvckRecovery.sampleStore 5 .encrypt)) ⟨0, 2, 131072⟩
        twoFooters (JvckRecovery.sampleDevice 5 .encrypt) ∧
      ¬ AttachFinds headerEnv (suiteOf (JvckRecovery.sampleStore 5 .encrypt))
        (twoFooters.geometry 512) (provisionalVolume 512 (replicaLayout 512 1024 ⟨0, 2, 131072⟩)) true
        (JvckRecovery.sampleDevice 5 .encrypt) := by
  have hheader : computeGeometry 512 1024 ⟨1, 0, 131072⟩ = .ok ⟨256, 768, 512⟩ := by decide
  refine ⟨?_, sampleDevice_valid, ?_⟩
  · rw [prepareInPlace_iff hheader (by decide)]
    decide
  · have hvalid := sampleDevice_valid
    obtain ⟨hsize, htotal⟩ := sampleDevice_shape
    generalize JvckRecovery.sampleDevice 5 .encrypt = d at *
    have hiff := attachFinds_iff (by rw [hsize, htotal]; exact twoFooters_geometry)
      (by rw [Device.sectors, Device.ss, hsize, htotal]; decide) hvalid rfl true
    rw [hsize, htotal] at hiff
    rw [hiff]
    simp

end Sample

end RoutedMetadata
