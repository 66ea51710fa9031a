import VolumeCrypt.DataPath

/-!
# Interception of the filter's requests

`lib/windrv/src/filter/io.rs`: the byte offset of a read or write is shifted behind the
header replicas, a request from user mode is turned away when its first sector is not
a data sector, and the size queries report the data region. The guard looks at the
first sector of a request only.
-/
namespace FilterIo

open ByteString ByteMemory VckTypes SectorIo CipherTraits SweepEngine VolumeSweep DataPath

/-- `u64::saturating_mul`. -/
def saturatingMul (a b : UInt64) : UInt64 :=
  if a.toNat * b.toNat < 2 ^ 64 then a * b else UInt64.ofNat (2 ^ 64 - 1)

def ioctlDiskGetLengthInfo : UInt32 := 0x0007405C

def ioctlDiskGetPartitionInfo : UInt32 := 0x00074004

def ioctlDiskGetPartitionInfoEx : UInt32 := 0x00070048

def sizeFieldOffset (code : UInt32) : Option Nat :=
  if code = ioctlDiskGetLengthInfo then some 0
  else if code = ioctlDiskGetPartitionInfo then some 8
  else if code = ioctlDiskGetPartitionInfoEx then some 16
  else none

/-- `IRP_MN_START_DEVICE`. -/
def irpMnStartDevice : UInt8 := 0

/-- The current stack location; a size query carries the outcome of its pool allocation. -/
inductive StackLocation where
  | pnp (minorFunction : UInt8)
  | read (irp : Irp)
  | write (irp : Irp)
  | deviceControl (ioControlCode : UInt32) (allocated : Bool)
  | other

/-- The part of a filter's extension that the data path reads. -/
structure Extension (σ : Type) where
  volume : Option (AttachedVolume σ)
  vthread : Bool

/-- What `handle_filter_irp` does with a request. -/
inductive Dispatch where
  | accessDenied
  | startDevice
  | sizeQuery (dataBytes : UInt64)
  | enqueue (irp : Irp) (isWrite : Bool)
  | passThrough (stack : StackLocation)

section Handler

variable {σ : Type}

/-- The size that `intercept_size_ioctl` hands to its completion routine. -/
def reportedSize (v : AttachedVolume σ) : UInt64 := saturatingMul v.dataSectors v.sectorSize.toUInt64

def interceptSizeIoctl (v : AttachedVolume σ) (code : UInt32) (allocated : Bool) : Dispatch :=
  if allocated then .sizeQuery (reportedSize v) else .passThrough (.deviceControl code allocated)

/-- The system buffer after `size_ioctl_completion`. -/
def sizeIoctlCompletion (dataBytes : UInt64) (code : UInt32) (success : Bool) (information : Nat)
    (sysbuf : Option Bytes) : Option Bytes :=
  if success then
    match sizeFieldOffset code with
    | some fieldOff =>
      sysbuf.map fun buf => if fieldOff + 8 ≤ information then copyAt buf fieldOff (leBytes 8 dataBytes.toNat) else buf
    | none => sysbuf
  else sysbuf

def handleFilterPnp (minorFunction : UInt8) : Dispatch :=
  if minorFunction ≠ irpMnStartDevice then .passThrough (.pnp minorFunction) else .startDevice

def isMetadataSector (v : AttachedVolume σ) (byteOffset sectorSize : UInt64) : Bool :=
  if sectorSize = 0 then false else (dataRelative v (byteOffset / sectorSize)).isNone

def shiftOffset (v : AttachedVolume σ) (irp : Irp) : Irp :=
  let shift := saturatingMul v.offsetSector v.sectorSize.toUInt64
  if shift = 0 then irp else { irp with byteOffset := irp.byteOffset + shift }

/-- The two branches for `IRP_MJ_READ` and `IRP_MJ_WRITE`. -/
def handleReadWrite (v : AttachedVolume σ) (vthread : Bool) (requestorMode : UInt8) (irp : Irp) (isWrite : Bool) :
    Dispatch :=
  let irp := shiftOffset v irp
  if isMetadataSector v irp.byteOffset v.sectorSize.toUInt64 ∧ requestorMode ≠ 0 then .accessDenied
  else if vthread then .enqueue irp isWrite
  else .passThrough (if isWrite then .write irp else .read irp)

def handleFilterIrp (ext : Extension σ) (requestorMode : UInt8) (stack : StackLocation) : Dispatch :=
  match stack, ext.volume with
  | .pnp minorFunction, _ => handleFilterPnp minorFunction
  | stack, none => .passThrough stack
  | .read irp, some v => handleReadWrite v ext.vthread requestorMode irp false
  | .write irp, some v => handleReadWrite v ext.vthread requestorMode irp true
  | .deviceControl code allocated, some v =>
    if (sizeFieldOffset code).isSome then interceptSizeIoctl v code allocated
    else .passThrough (.deviceControl code allocated)
  | .other, some _ => .passThrough .other

end Handler

/-! ## The raw sectors of a request -/

/-- The sectors that the bytes `[byteOffset, byteOffset + length)` lie in. -/
def overlaps (irp : Irp) (ss lba : Nat) : Prop :=
  ∃ a, irp.byteOffset.toNat ≤ a ∧ a < irp.byteOffset.toNat + irp.length.toNat ∧ a / ss = lba

/-- The whole sectors that `process_read` and `process_write` ask the lower device for. -/
def serves (irp : Irp) (ss lba : Nat) : Prop :=
  irp.mapped = true ∧ irp.allocated = true ∧ irp.byteOffset.toNat / ss ≤ lba ∧
    lba < irp.byteOffset.toNat / ss + irp.length.toNat / ss

/-- The raw sectors that the request goes on to read or write. -/
def Dispatch.touches (ss : Nat) : Dispatch → Nat → Prop
  | .enqueue irp _, lba => serves irp ss lba
  | .passThrough (.read irp), lba => overlaps irp ss lba
  | .passThrough (.write irp), lba => overlaps irp ss lba
  | _, _ => False

section Thread

variable {σ : Type} {v : AttachedVolume σ} {burst : Option VolumeCipher} {irp : Irp} {d d' : Device}

theorem length_cryptFragment {pipeline : VolumeCipher → UInt64 → UInt64 → Bytes → Nat → Bytes} {ss : Nat}
    (hlen : ∀ c, (getPipeline burst v).1 = some c →
      ∀ first boundary buf, (pipeline c first boundary buf ss).length = buf.length) (lba : UInt64) (frag : Bytes) :
    (cryptFragment pipeline v burst lba frag ss).1.length = frag.length := by
  unfold cryptFragment
  split
  · rfl
  · split
    · rfl
    · rename_i cipher _ hget
      exact hlen cipher (congrArg Prod.fst hget) _ _ _

/-- The thread writes to the sectors that the request serves and to no other. -/
theorem processWrite_frame (hss : v.sectorSize = d.sectorSize) (hbuf : irp.buffer.length = irp.length.toNat)
    (hlaw : ∀ c, (getPipeline burst v).1 = some c → LawfulCipher d.ss c) :
    Frame (serves irp d.ss) d (processWrite v burst irp d).2.2.2 := by
  have hsize : v.sectorSize.toNat = d.ss := congrArg UInt32.toNat hss
  unfold processWrite
  simp only [hsize]
  split
  · exact .refl _ _
  split
  · exact .refl _ _
  split
  · exact .refl _ _
  rename_i hmap
  simp only [Bool.or_eq_true, Bool.not_eq_true', not_or, Bool.not_eq_false] at hmap
  have hfirst : (irp.byteOffset / v.sectorSize.toUInt64).toNat = irp.byteOffset.toNat / d.ss := by
    rw [UInt64.toNat_div, UInt32.toNat_toUInt64, hsize]
  have hl : (cryptFragment encryptWrite v burst (irp.byteOffset / v.sectorSize.toUInt64)
      (irp.buffer.take (irp.length.toNat / d.ss * d.ss)) d.ss).1.length = irp.length.toNat / d.ss * d.ss := by
    have hlen : ∀ c, (getPipeline burst v).1 = some c →
        ∀ first boundary buf, (encryptWrite c first boundary buf d.ss).length = buf.length :=
      fun c hc _ _ _ => length_transformPrefix (hlaw c hc).encryptArea
    rw [length_cryptFragment hlen, List.length_take, hbuf]
    exact Nat.min_eq_left (Nat.div_mul_le_self _ _)
  have hframe := writeSectors_frame d (irp.byteOffset / v.sectorSize.toUInt64) hl
  rw [hfirst] at hframe
  have hserves := hframe.mono (T := serves irp d.ss) fun i hi => ⟨hmap.1, hmap.2, hi⟩
  split <;> rename_i hw <;> rw [hw] at hserves <;> exact hserves

/-- What the thread returns depends on the sectors that the request serves only. -/
theorem processRead_congr (hss : v.sectorSize = d.sectorSize)
    (hd : Frame (fun lba => ¬ serves irp d.ss lba) d d') :
    processRead v burst irp d' = processRead v burst irp d := by
  have hsize : v.sectorSize.toNat = d.ss := congrArg UInt32.toNat hss
  unfold processRead
  simp only [hsize]
  split
  · rfl
  split
  · rfl
  split
  · rfl
  rename_i hmap
  simp only [Bool.or_eq_true, Bool.not_eq_true', not_or, Bool.not_eq_false] at hmap
  have hfirst : (irp.byteOffset / v.sectorSize.toUInt64).toNat = irp.byteOffset.toNat / d.ss := by
    rw [UInt64.toNat_div, UInt32.toNat_toUInt64, hsize]
  have hload : load d'.bytes (irp.byteOffset.toNat / d.ss * d.ss) (irp.length.toNat / d.ss * d.ss) =
      load d.bytes (irp.byteOffset.toNat / d.ss * d.ss) (irp.length.toNat / d.ss * d.ss) :=
    hd.load_eq fun i hi hn => hn ⟨hmap.1, hmap.2, Nat.le_add_right _ _, by omega⟩
  have hread : readSectors d' (irp.byteOffset / v.sectorSize.toUInt64) (irp.length.toNat / d.ss * d.ss) =
      readSectors d (irp.byteOffset / v.sectorSize.toUInt64) (irp.length.toNat / d.ss * d.ss) := by
    simp only [readSectors, Device.touched, hd.ss, hd.sectors, hd.readFault, hfirst, hload]
  rw [hread]

end Thread

/-! ## Shift and guard in naturals -/

theorem toNat_saturatingMul (a b : UInt64) :
    (saturatingMul a b).toNat = min (a.toNat * b.toNat) (2 ^ 64 - 1) := by
  rw [saturatingMul]
  split
  · rename_i h
    rw [UInt64.toNat_mul, Nat.mod_eq_of_lt h]
    omega
  · rename_i h
    rw [UInt64.toNat_ofNat', Nat.mod_eq_of_lt (by decide)]
    omega

section Guard

variable {σ : Type} {v : AttachedVolume σ} {irp : Irp}

theorem toNat_reportedSize (v : AttachedVolume σ) :
    (reportedSize v).toNat = min (v.dataSectors.toNat * v.sectorSize.toNat) (2 ^ 64 - 1) := by
  rw [reportedSize, toNat_saturatingMul, UInt32.toNat_toUInt64]

/-- A successful size query whose output holds the field shows the size of the data region. -/
theorem sizeIoctlCompletion_reports (v : AttachedVolume σ) {code : UInt32} {fieldOff information : Nat} {buf : Bytes}
    (hcode : sizeFieldOffset code = some fieldOff) (hinfo : fieldOff + 8 ≤ information)
    (hbuf : information ≤ buf.length) :
    (sizeIoctlCompletion (reportedSize v) code true information (some buf)).map (fun b => leNat (slice b fieldOff 8)) =
      some (reportedSize v).toNat := by
  simp only [sizeIoctlCompletion, hcode, if_true, Option.map_some, hinfo]
  rw [slice_copyAt_same (by omega) (length_leBytes 8 _), leNat_leBytes_of_lt (UInt64.toNat_lt _)]

/-- A size that a size query leaves in its buffer when it succeeds. -/
def ShowsSize (v : AttachedVolume σ) (size : Nat) : Prop :=
  ∃ code fieldOff information, ∃ buf : Bytes, sizeFieldOffset code = some fieldOff ∧ fieldOff + 8 ≤ information ∧
    information ≤ buf.length ∧
      (sizeIoctlCompletion (reportedSize v) code true information (some buf)).map (fun b => leNat (slice b fieldOff 8)) =
        some size

theorem showsSize_iff {size : Nat} : ShowsSize v size ↔ size = (reportedSize v).toNat := by
  constructor
  · rintro ⟨code, fieldOff, information, buf, hcode, hinfo, hbuf, hsize⟩
    rw [sizeIoctlCompletion_reports v hcode hinfo hbuf] at hsize
    exact (Option.some.inj hsize).symm
  · rintro rfl
    exact ⟨ioctlDiskGetLengthInfo, 0, 8, List.replicate 8 0, rfl, by decide, by decide,
      sizeIoctlCompletion_reports v rfl (by decide) (by decide)⟩

/-- The guard lets a byte pass exactly when its sector is a data sector. -/
theorem isMetadataSector_eq_false_iff (hs : v.sectorSize ≠ 0) (b : UInt64) :
    isMetadataSector v b v.sectorSize.toUInt64 = false ↔
      v.offsetSector.toNat ≤ b.toNat / v.sectorSize.toNat ∧
        b.toNat / v.sectorSize.toNat < v.offsetSector.toNat + v.dataSectors.toNat := by
  have hz : v.sectorSize.toUInt64 ≠ 0 := by
    intro h
    apply hs
    have h' := congrArg UInt64.toNat h
    rw [UInt32.toNat_toUInt64] at h'
    exact UInt32.toNat_inj.mp h'
  rw [isMetadataSector, if_neg hz, dataRelative_eq, UInt64.toNat_div, UInt32.toNat_toUInt64]
  split
  · rename_i h
    simp [h]
  · rename_i h
    simp [h]

theorem toNat_shiftOffset (v : AttachedVolume σ) (irp : Irp) :
    (shiftOffset v irp).byteOffset.toNat =
      (irp.byteOffset.toNat + min (v.offsetSector.toNat * v.sectorSize.toNat) (2 ^ 64 - 1)) % 2 ^ 64 := by
  have hmul : (saturatingMul v.offsetSector v.sectorSize.toUInt64).toNat =
      min (v.offsetSector.toNat * v.sectorSize.toNat) (2 ^ 64 - 1) := by
    rw [toNat_saturatingMul, UInt32.toNat_toUInt64]
  rw [shiftOffset]
  split
  · rename_i h
    have hzero : (0 : UInt64).toNat = 0 := rfl
    rw [h, hzero] at hmul
    rw [← hmul, Nat.add_zero, Nat.mod_eq_of_lt (UInt64.toNat_lt _)]
  · rw [UInt64.toNat_add, hmul]

theorem shiftOffset_fields (v : AttachedVolume σ) (irp : Irp) :
    (shiftOffset v irp).length = irp.length ∧ (shiftOffset v irp).mapped = irp.mapped ∧
      (shiftOffset v irp).allocated = irp.allocated := by
  rw [shiftOffset]
  split
  · exact ⟨rfl, rfl, rfl⟩
  · exact ⟨rfl, rfl, rfl⟩

/-- A request inside the size that the size queries report. -/
def InsideReported (v : AttachedVolume σ) (irp : Irp) : Prop :=
  0 < irp.length.toNat ∧ irp.byteOffset.toNat + irp.length.toNat ≤ (reportedSize v).toNat

/-- A request inside a size that a size query has shown. -/
def InsideShown (v : AttachedVolume σ) (irp : Irp) : Prop :=
  ∃ size, ShowsSize v size ∧ 0 < irp.length.toNat ∧ irp.byteOffset.toNat + irp.length.toNat ≤ size

theorem insideShown_iff : InsideShown v irp ↔ InsideReported v irp := by
  simp only [InsideShown, showsSize_iff, exists_eq_left, InsideReported]

/-- The shift takes the first sector to the data sector with the same relative number. -/
def ShiftedInPlace (v : AttachedVolume σ) (irp : Irp) : Prop :=
  dataRelative v ((shiftOffset v irp).byteOffset / v.sectorSize.toUInt64) =
    some (irp.byteOffset / v.sectorSize.toUInt64)

def DataSector (v : AttachedVolume σ) (lba : Nat) : Prop :=
  v.offsetSector.toNat ≤ lba ∧ lba < v.offsetSector.toNat + v.dataSectors.toNat

/-- The request is turned away or stays in the data region. -/
def Confined (v : AttachedVolume σ) (r : Dispatch) : Prop :=
  r = .accessDenied ∨ ∀ lba, r.touches v.sectorSize.toNat lba → DataSector v lba

/-- The thread reads nothing but data sectors for a queued request and writes no other sector. -/
def ServedInside (v : AttachedVolume σ) : Dispatch → Prop
  | .enqueue irp false => ∀ burst (d d' : Device), v.sectorSize = d.sectorSize →
      Frame (fun lba => ¬ DataSector v lba) d d' → processRead v burst irp d' = processRead v burst irp d
  | .enqueue irp true => ∀ burst (d : Device), v.sectorSize = d.sectorSize → irp.buffer.length = irp.length.toNat →
      (∀ c, (getPipeline burst v).1 = some c → LawfulCipher d.ss c) →
        Frame (DataSector v) d (processWrite v burst irp d).2.2.2
  | _ => True

/-- Confined, and served accordingly. -/
def StaysInside (v : AttachedVolume σ) (r : Dispatch) : Prop := Confined v r ∧ ServedInside v r

theorem staysInside_iff {r : Dispatch} : StaysInside v r ↔ Confined v r := by
  refine ⟨fun h => h.1, fun h => ⟨h, ?_⟩⟩
  rcases r with _ | _ | _ | ⟨irp, isWrite⟩ | _
  case enqueue =>
    have hdata := h.resolve_left nofun
    cases isWrite with
    | false =>
      intro burst d d' hss hframe
      refine processRead_congr hss (hframe.mono ?_)
      intro lba hout hserves
      rw [← show v.sectorSize.toNat = d.ss from congrArg UInt32.toNat hss] at hserves
      exact hout (hdata lba hserves)
    | true =>
      intro burst d hss hbuf hlaw
      refine (processWrite_frame hss hbuf hlaw).mono ?_
      intro lba hserves
      rw [← show v.sectorSize.toNat = d.ss from congrArg UInt32.toNat hss] at hserves
      exact hdata lba hserves
  all_goals trivial

/-- The shifted request starts on a data sector and ends behind the last one. -/
def RunsPast (v : AttachedVolume σ) (vthread : Bool) (irp : Irp) : Prop :=
  let b := (shiftOffset v irp).byteOffset
  isMetadataSector v b v.sectorSize.toUInt64 = false ∧
    if vthread then
      irp.mapped = true ∧ irp.allocated = true ∧ v.offsetSector.toNat + v.dataSectors.toNat <
        b.toNat / v.sectorSize.toNat + irp.length.toNat / v.sectorSize.toNat
    else
      (v.offsetSector.toNat + v.dataSectors.toNat) * v.sectorSize.toNat < b.toNat + irp.length.toNat

/-- Below `2 ^ 64` the shift is an addition of whole sectors. -/
theorem toNat_shiftOffset_of_lt (h : v.offsetSector.toNat * v.sectorSize.toNat + irp.byteOffset.toNat < 2 ^ 64) :
    (shiftOffset v irp).byteOffset.toNat = v.offsetSector.toNat * v.sectorSize.toNat + irp.byteOffset.toNat := by
  rw [toNat_shiftOffset, Nat.min_eq_left (by omega), Nat.add_comm, Nat.mod_eq_of_lt h]

/-- A shift that leaves the 64-bit range lands before the data region. -/
theorem toNat_shiftOffset_of_ge (irp : Irp) (hs : 0 < v.sectorSize.toNat)
    (h : 2 ^ 64 ≤ v.offsetSector.toNat * v.sectorSize.toNat + irp.byteOffset.toNat) :
    (shiftOffset v irp).byteOffset.toNat / v.sectorSize.toNat < v.offsetSector.toNat := by
  have hb := UInt64.toNat_lt irp.byteOffset
  rw [Nat.div_lt_iff_lt_mul hs, toNat_shiftOffset]
  generalize v.offsetSector.toNat * v.sectorSize.toNat = p at *
  by_cases hp : p < 2 ^ 64
  · rw [Nat.min_eq_left (by omega), Nat.mod_eq_sub_mod (by omega), Nat.mod_eq_of_lt (by omega)]
    omega
  · have := Nat.mod_lt (irp.byteOffset.toNat + min p (2 ^ 64 - 1)) (by decide : 0 < 2 ^ 64)
    omega

theorem toNat_sectorSize_pos (hs : v.sectorSize ≠ 0) : 0 < v.sectorSize.toNat :=
  Nat.pos_of_ne_zero fun h => hs (UInt32.toNat_inj.mp h)

/-- Inside the reported size the shift keeps the relative sector exactly when it does not wrap around. -/
theorem shiftedInPlace_iff (hs : v.sectorSize ≠ 0) (hin : InsideReported v irp) :
    ShiftedInPlace v irp ↔ v.offsetSector.toNat * v.sectorSize.toNat + irp.byteOffset.toNat < 2 ^ 64 := by
  have hpos := toNat_sectorSize_pos hs
  obtain ⟨hlen, hend⟩ := hin
  rw [toNat_reportedSize] at hend
  have hrel : irp.byteOffset.toNat / v.sectorSize.toNat < v.dataSectors.toNat := by
    rw [Nat.div_lt_iff_lt_mul hpos]
    omega
  rw [ShiftedInPlace, dataRelative_eq, UInt64.toNat_div, UInt32.toNat_toUInt64]
  constructor
  · intro h
    by_contra hge
    have hlow := toNat_shiftOffset_of_ge irp hpos (by omega)
    rw [if_neg (by omega)] at h
    cases h
  · intro hlt
    have hdiv : (shiftOffset v irp).byteOffset.toNat / v.sectorSize.toNat =
        v.offsetSector.toNat + irp.byteOffset.toNat / v.sectorSize.toNat := by
      rw [toNat_shiftOffset_of_lt hlt, Nat.add_comm, Nat.add_mul_div_right _ _ hpos, Nat.add_comm]
    rw [hdiv, if_pos ⟨Nat.le_add_right _ _, Nat.add_lt_add_left hrel _⟩]
    congr 1
    apply UInt64.toNat_inj.mp
    have hlba : ((shiftOffset v irp).byteOffset / v.sectorSize.toUInt64).toNat =
        v.offsetSector.toNat + irp.byteOffset.toNat / v.sectorSize.toNat := by
      rw [UInt64.toNat_div, UInt32.toNat_toUInt64, hdiv]
    rw [UInt64.toNat_sub_of_le _ _ (UInt64.le_iff_toNat_le.mpr (hlba ▸ Nat.le_add_right _ _)), hlba,
      Nat.add_sub_cancel_left, UInt64.toNat_div, UInt32.toNat_toUInt64]

/-- The bytes of a request lie in data sectors when it starts in one and does not run past the last. -/
theorem overlaps_iff {r : Irp} {ss lo hi : Nat} (hpos : 0 < ss) (hlo : lo ≤ r.byteOffset.toNat / ss)
    (hhi : r.byteOffset.toNat / ss < hi) :
    (∀ lba, overlaps r ss lba → lo ≤ lba ∧ lba < hi) ↔ r.byteOffset.toNat + r.length.toNat ≤ hi * ss := by
  rw [Nat.div_lt_iff_lt_mul hpos] at hhi
  constructor
  · intro h
    by_contra hgt
    have hlast := (h _ ⟨hi * ss, by omega, by omega, rfl⟩).2
    rw [Nat.mul_div_cancel _ hpos] at hlast
    omega
  · rintro hle lba ⟨a, hfrom, hto, rfl⟩
    refine ⟨hlo.trans (Nat.div_le_div_right hfrom), ?_⟩
    rw [Nat.div_lt_iff_lt_mul hpos]
    omega

/-- The same for the sectors that the thread serves. -/
theorem serves_iff {r : Irp} {ss lo hi : Nat} (hlo : lo ≤ r.byteOffset.toNat / ss)
    (hhi : r.byteOffset.toNat / ss < hi) :
    (∀ lba, serves r ss lba → lo ≤ lba ∧ lba < hi) ↔
      ¬ (r.mapped = true ∧ r.allocated = true ∧ hi < r.byteOffset.toNat / ss + r.length.toNat / ss) := by
  constructor
  · rintro h ⟨hm, ha, hgt⟩
    have := h hi ⟨hm, ha, by omega, by omega⟩
    omega
  · rintro h lba ⟨hm, ha, hfrom, hto⟩
    have hle : r.byteOffset.toNat / ss + r.length.toNat / ss ≤ hi := by
      by_contra hgt
      exact h ⟨hm, ha, by omega⟩
    omega

/-- A request from user mode stays in the data region exactly when it does not run past its end. -/
theorem confined_iff (irp : Irp) (hs : v.sectorSize ≠ 0) (vthread : Bool) {mode : UInt8} (hmode : mode ≠ 0)
    (isWrite : Bool) :
    Confined v (handleReadWrite v vthread mode irp isWrite) ↔ ¬ RunsPast v vthread irp := by
  have hpos := toNat_sectorSize_pos hs
  obtain ⟨hlen, hmap, halloc⟩ := shiftOffset_fields v irp
  have hguard := isMetadataSector_eq_false_iff hs (shiftOffset v irp).byteOffset
  unfold handleReadWrite RunsPast
  simp only [hmode, ne_eq, not_false_eq_true, and_true]
  by_cases hdeny : isMetadataSector v (shiftOffset v irp).byteOffset v.sectorSize.toUInt64 = true
  · simp [hdeny, Confined]
  · simp only [Bool.not_eq_true] at hdeny
    obtain ⟨hlo, hhi⟩ := hguard.mp hdeny
    simp only [hdeny, Bool.false_eq_true, if_false, true_and, Confined, DataSector]
    cases vthread with
    | true =>
      have h := serves_iff hlo hhi
      rw [hlen, hmap, halloc] at h
      simpa [Dispatch.touches] using h
    | false =>
      have h := overlaps_iff hpos hlo hhi
      rw [hlen] at h
      cases isWrite <;> simpa [Dispatch.touches] using h

/-- A request inside the reported size that does not wrap around never runs past the data region. -/
theorem not_runsPast_of_insideReported (hs : v.sectorSize ≠ 0) (vthread : Bool) (hin : InsideReported v irp)
    (hlt : v.offsetSector.toNat * v.sectorSize.toNat + irp.byteOffset.toNat < 2 ^ 64) :
    ¬ RunsPast v vthread irp := by
  have hpos := toNat_sectorSize_pos hs
  obtain ⟨-, hend⟩ := hin
  rw [toNat_reportedSize] at hend
  have hshift := toNat_shiftOffset_of_lt hlt
  have hle : (shiftOffset v irp).byteOffset.toNat + irp.length.toNat ≤
      (v.offsetSector.toNat + v.dataSectors.toNat) * v.sectorSize.toNat := by
    rw [hshift, Nat.add_mul]
    omega
  rintro ⟨-, hpast⟩
  cases vthread with
  | false => exact absurd hpast (by simpa using hle)
  | true =>
    simp only [if_true] at hpast
    have hdiv : (shiftOffset v irp).byteOffset.toNat / v.sectorSize.toNat + irp.length.toNat / v.sectorSize.toNat ≤
        v.offsetSector.toNat + v.dataSectors.toNat :=
      Nat.div_add_div_le_add_div.trans (Nat.div_le_of_le_mul (by rwa [Nat.mul_comm]))
    omega

/-- Reads and writes stay out of the metadata, and the reported range is shifted in place, exactly when no
request from user mode runs past the data region and no request inside the reported size wraps around. -/
theorem filter_io_confined_iff (v : AttachedVolume σ) (hs : v.sectorSize ≠ 0) (vthread : Bool) (requestorMode : UInt8)
    (irp : Irp) :
    ((requestorMode ≠ 0 →
        StaysInside v (handleFilterIrp ⟨some v, vthread⟩ requestorMode (.read irp)) ∧
          StaysInside v (handleFilterIrp ⟨some v, vthread⟩ requestorMode (.write irp))) ∧
      (InsideShown v irp → ShiftedInPlace v irp)) ↔
      ¬ (requestorMode ≠ 0 ∧ RunsPast v vthread irp) ∧
        (InsideReported v irp →
          v.offsetSector.toNat * v.sectorSize.toNat + irp.byteOffset.toNat < 2 ^ 64) := by
  have hshift : (InsideShown v irp → ShiftedInPlace v irp) ↔ (InsideReported v irp →
      v.offsetSector.toNat * v.sectorSize.toNat + irp.byteOffset.toNat < 2 ^ 64) := by
    rw [insideShown_iff]
    exact forall_congr' fun hin => shiftedInPlace_iff hs hin
  have hconf : (requestorMode ≠ 0 →
        StaysInside v (handleFilterIrp ⟨some v, vthread⟩ requestorMode (.read irp)) ∧
          StaysInside v (handleFilterIrp ⟨some v, vthread⟩ requestorMode (.write irp))) ↔
      ¬ (requestorMode ≠ 0 ∧ RunsPast v vthread irp) := by
    rw [not_and]
    apply forall_congr'
    intro hmode
    have hread := confined_iff irp hs vthread hmode false
    have hwrite := confined_iff irp hs vthread hmode true
    simp only [handleFilterIrp, staysInside_iff]
    rw [hread, hwrite, and_self]
  rw [hshift, hconf]

end Guard

section Sample

/-- A request for two sectors. -/
def sampleWrite (byteOffset : UInt64) : Irp := ⟨byteOffset, 1024, List.replicate 1024 0, true, true⟩

/-- The last two data sectors can be written, and nothing else is touched. -/
theorem filter_io_confined_last_sectors :
    ((1 : UInt8) ≠ 0 →
        StaysInside sampleVolume (handleFilterIrp ⟨some sampleVolume, true⟩ 1 (.read (sampleWrite 261120))) ∧
          StaysInside sampleVolume (handleFilterIrp ⟨some sampleVolume, true⟩ 1 (.write (sampleWrite 261120)))) ∧
      (InsideShown sampleVolume (sampleWrite 261120) → ShiftedInPlace sampleVolume (sampleWrite 261120)) := by
  have hs : sampleVolume.sectorSize ≠ 0 := by decide
  have hin : InsideReported sampleVolume (sampleWrite 261120) := ⟨by decide, by decide⟩
  have hlt : sampleVolume.offsetSector.toNat * sampleVolume.sectorSize.toNat + (sampleWrite 261120).byteOffset.toNat <
      2 ^ 64 := by decide
  exact (filter_io_confined_iff sampleVolume hs true 1 (sampleWrite 261120)).mpr
    ⟨fun h => not_runsPast_of_insideReported hs true hin hlt h.2, fun _ => hlt⟩

/-- A write of two sectors that starts in the last data sector reaches the first footer replica, on both paths. -/
theorem user_write_reaches_footer :
    ¬ Confined sampleVolume (handleFilterIrp ⟨some sampleVolume, true⟩ 1 (.write (sampleWrite 261632))) ∧
      ¬ Confined sampleVolume (handleFilterIrp ⟨some sampleVolume, false⟩ 1 (.write (sampleWrite 261632))) := by
  have hs : sampleVolume.sectorSize ≠ 0 := by decide
  have hmode : (1 : UInt8) ≠ 0 := by decide
  constructor
  · exact fun h => (confined_iff (sampleWrite 261632) hs true hmode true).mp h ⟨by decide, by decide⟩
  · exact fun h => (confined_iff (sampleWrite 261632) hs false hmode true).mp h ⟨by decide, by decide⟩

end Sample

end FilterIo
