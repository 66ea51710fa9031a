import VolumeCrypt.JvckLayout
import VolumeCrypt.JvckMetadata

/-!
# The volume-backed metadata store

`lib/common/src/jvck/codec.rs` and `jvck/store.rs`: the codec interface with its
default suite, the store that re-seals every replica on each change, the two-phase
reader that opens an existing volume, and the vendor data API. A function that only
reads takes the device; a function that writes also returns it, with whatever was
written before an error.
-/
namespace JvckStore

open ByteString VckTypes SectorIo JvckLayout
open JvckMetadata (Primitives JvckHeader JvckSecrets)

/-! ## Codec -/

structure Unsealed where
  encryptedOffset : UInt64
  state : VolumeState
  secrets : JvckSecrets

/-- One CRC-valid replica, as the codec sees it. -/
structure ReplicaCtx where
  header : JvckHeader
  block : Fixed 512
  io : Device
  vendorBaseLba : UInt64
  vendorSectorCount : UInt64
  sectorSize : UInt32
  replicaIndex : Nat

/-- The `MetadataCodec` trait: `unseal`, `seal` and `read_offset`. -/
structure MetadataCodec where
  unsealPayload : ReplicaCtx → Bytes → VckResult Unsealed
  sealPayload : JvckHeader → JvckSecrets → UInt64 → VolumeState → Fixed 16 → Bytes → VckResult (Fixed 512)
  readOffset : ReplicaCtx → Bytes → VckResult UInt64

/-- The default suite. -/
def jvckCbcCodec (P : Primitives) : MetadataCodec where
  unsealPayload ctx vmk := do
    let (encryptedOffset, state, secrets) ← JvckMetadata.decryptPayload P ctx.block.toList vmk
    return { encryptedOffset, state, secrets }
  sealPayload header secrets encryptedOffset state salt vmk :=
    .ok ⟨JvckMetadata.encode P header secrets encryptedOffset state salt vmk, JvckMetadata.length_encode ..⟩
  readOffset ctx vmk := JvckMetadata.readEncryptedOffset P ctx.block.toList vmk

/-! ## Blocks and vendor ranges -/

def readBlock (d : Device) (sectorSize : UInt32) (lba : UInt64) : VckResult (Fixed 512) := do
  let sector ← readSectors d lba sectorSize.toNat
  return Fixed.ofBytes 512 (slice sector 0 512)

/-- The block alone in its sector, the rest zero. -/
def writeBlock (d : Device) (sectorSize : UInt32) (lba : UInt64) (block : Fixed 512) : VckResult Unit × Device :=
  writeSectors d lba (copyAt (List.replicate sectorSize.toNat 0) 0 block.toList)

def saturatingSub (a b : UInt64) : UInt64 := if a < b then 0 else a - b

def checkedAdd (a b : UInt64) : Option UInt64 :=
  if a.toNat + b.toNat < 2 ^ 64 then some (a + b) else none

/-- The checks that the three vendor data entry points share, with the LBA to access. -/
def vendorLba (sectorSize : UInt32) (base : Option UInt64) (count relSector : UInt64) (len : Nat) :
    VckResult UInt64 :=
  let ss := sectorSize.toNat
  if ss = 0 ∨ len = 0 ∨ len % ss ≠ 0 then
    .error (.invalidData "vendor data buffer must be a non-zero multiple of the sector size")
  else
    match base with
    | none => .error (.notFound "vendor data replica index out of range")
    | some base =>
      match checkedAdd relSector (UInt64.ofNat (len / ss)) with
      | none => .error (.validationFailed "vendor data range exceeds the replica region")
      | some stop =>
        if stop > count then .error (.validationFailed "vendor data range exceeds the replica region")
        else .ok (base + relSector)

def ReplicaCtx.readVendorData (ctx : ReplicaCtx) (relSector : UInt64) (len : Nat) : VckResult Bytes := do
  let lba ← vendorLba ctx.sectorSize (some ctx.vendorBaseLba) ctx.vendorSectorCount relSector len
  readSectors ctx.io lba len

/-! ## Replicas of a layout -/

/-- The part of a store or a reader that locates its replicas. -/
structure Placement where
  options : JvckMetadataOptions
  geometry : Geometry
  volumeSectors : UInt64

def Placement.rs (p : Placement) : UInt64 := replicaSectors p.options.metadataSize p.geometry.sectorSize

def Placement.lbas (p : Placement) : List UInt64 :=
  metadataSectorLbas p.volumeSectors p.rs p.options.useHeader p.options.useFooter

def Placement.vendorBase (p : Placement) (replicaIndex : Nat) : Option UInt64 :=
  vendorDataBaseLbaAt p.volumeSectors p.rs p.options.useHeader p.options.useFooter replicaIndex

def Placement.replicaCount (p : Placement) : Nat := (p.options.useHeader + p.options.useFooter).toNat

def Placement.vendorDataSectorCount (p : Placement) : UInt64 := saturatingSub p.rs 1

def Placement.vendorDataLba (p : Placement) (replicaIndex : Nat) (relSector : UInt64) (len : Nat) :
    VckResult UInt64 :=
  vendorLba p.geometry.sectorSize (p.vendorBase replicaIndex) p.vendorDataSectorCount relSector len

/-- The context that a replica's block is handed over in. -/
def Placement.ctx (p : Placement) (header : JvckHeader) (d : Device) (idx : Nat) (block : Fixed 512) : ReplicaCtx :=
  { header
    block
    io := d
    vendorBaseLba := (p.vendorBase idx).getD 0
    vendorSectorCount := saturatingSub p.rs 1
    sectorSize := p.geometry.sectorSize
    replicaIndex := idx }

/-! ## The store -/

structure JvckMetadataStore extends Placement where
  vmk : Bytes
  header : JvckHeader
  secrets : JvckSecrets
  offset : UInt64
  state : UInt16
  codec : MetadataCodec

namespace JvckMetadataStore

/-- The loop of `load_offset` from replica `idx` on. -/
def loadLoop (P : Primitives) (s : JvckMetadataStore) (d : Device) (idx : Nat) (best : Option UInt64) :
    List UInt64 → Option UInt64
  | [] => best
  | lba :: lbas =>
    match readBlock d s.geometry.sectorSize lba with
    | .error _ => loadLoop P s d (idx + 1) best lbas
    | .ok block =>
      match JvckMetadata.verifyCrc P block.toList with
      | .error _ => loadLoop P s d (idx + 1) best lbas
      | .ok () =>
        match s.codec.readOffset (s.ctx s.header d idx block) s.vmk with
        | .error _ => loadLoop P s d (idx + 1) best lbas
        | .ok offset => loadLoop P s d (idx + 1) (some (best.elim offset (max · offset))) lbas

def loadOffset (P : Primitives) (s : JvckMetadataStore) (d : Device) : VckResult UInt64 :=
  match loadLoop P s d 0 none s.lbas with
  | some offset => .ok offset
  | none => .error (.notFound "no valid JVCK metadata replica")

/-- `for lba in lbas { write_block(lba)? }`. -/
def writeBlocks (sectorSize : UInt32) (block : Fixed 512) (d : Device) : List UInt64 → VckResult Unit × Device
  | [] => (.ok (), d)
  | lba :: lbas =>
    match writeBlock d sectorSize lba block with
    | (.error e, d) => (.error e, d)
    | (.ok (), d) => writeBlocks sectorSize block d lbas

def sealBlock (s : JvckMetadataStore) (salt : Fixed 16) : VckResult (Fixed 512) :=
  s.codec.sealPayload s.header s.secrets s.offset (VolumeState.fromU16 s.state) salt s.vmk

/-- `write_all_replicas`, restricted to the first `k` replica writes. -/
def writeReplicas (k : Nat) (s : JvckMetadataStore) (d : Device) : VckResult Unit × Device :=
  match fillRandom d with
  | (.error e, d) => (.error e, d)
  | (.ok salt, d) =>
    match s.sealBlock salt with
    | .error e => (.error e, d)
    | .ok block => writeBlocks s.geometry.sectorSize block d (s.lbas.take k)

def writeAllReplicas (s : JvckMetadataStore) (d : Device) : VckResult Unit × Device :=
  writeReplicas s.lbas.length s d

/-- Lay out the replicas and write seed metadata. -/
def create (d : Device) (vmk : Bytes) (options : JvckMetadataOptions) (fvekKey1 fvekKey2 : Fixed 32)
    (volumeId : Fixed 16) (codec : MetadataCodec) : VckResult JvckMetadataStore × Device :=
  match options.validate with
  | .error e => (.error e, d)
  | .ok () =>
    match computeGeometry d.sectorSize d.totalSectors options with
    | .error e => (.error e, d)
    | .ok geometry =>
      let header : JvckHeader :=
        { vendorId := 0
          metadataVersion := 1
          vendorVersion := 0
          metadataSize := options.metadataSize
          sectorSize := d.sectorSize
          headerReplicaCount := options.useHeader.toUInt8
          footerReplicaCount := options.useFooter.toUInt8
          volumeId
          vendorReserved := List.Vector.replicate 192 0 }
      let store : JvckMetadataStore :=
        { options
          geometry
          volumeSectors := d.totalSectors
          vmk
          header
          secrets := ⟨fvekKey1, fvekKey2⟩
          offset := 0
          state := VolumeState.encrypt.asU16
          codec }
      match store.writeAllReplicas d with
      | (.error e, d) => (.error e, d)
      | (.ok (), d) => (.ok store, d)

def readVendorData (s : JvckMetadataStore) (d : Device) (replicaIndex : Nat) (relSector : UInt64) (len : Nat) :
    VckResult Bytes := do
  let lba ← s.vendorDataLba replicaIndex relSector len
  readSectors d lba len

def writeVendorData (s : JvckMetadataStore) (d : Device) (replicaIndex : Nat) (relSector : UInt64) (buf : Bytes) :
    VckResult Unit × Device :=
  match s.vendorDataLba replicaIndex relSector buf.length with
  | .error e => (.error e, d)
  | .ok lba => writeSectors d lba buf

/-- The loop of `write_vendor_data_all` from replica `idx` on, `n` replicas to go. -/
def writeVendorLoop (s : JvckMetadataStore) (relSector : UInt64) (buf : Bytes) :
    Nat → Nat → Device → VckResult Unit × Device
  | 0, _, d => (.ok (), d)
  | n + 1, idx, d =>
    match s.writeVendorData d idx relSector buf with
    | (.error e, d) => (.error e, d)
    | (.ok (), d) => writeVendorLoop s relSector buf n (idx + 1) d

def writeVendorDataAll (s : JvckMetadataStore) (d : Device) (relSector : UInt64) (buf : Bytes) :
    VckResult Unit × Device :=
  match s.vendorDataLba 0 relSector buf.length with
  | .error e => (.error e, d)
  | .ok _ => writeVendorLoop s relSector buf s.replicaCount 0 d

def setVendorReserved (s : JvckMetadataStore) (d : Device) (vendorReserved : Fixed 192) :
    VckResult Unit × JvckMetadataStore × Device :=
  let s := { s with header := { s.header with vendorReserved } }
  let r := s.writeAllReplicas d
  (r.1, s, r.2)

def load (P : Primitives) (s : JvckMetadataStore) (d : Device) : VckResult EncryptedOffset := do
  let sector ← s.loadOffset P d
  return { sector, totalSectors := s.geometry.dataSectors }

def store (s : JvckMetadataStore) (d : Device) (offset : EncryptedOffset) :
    VckResult Unit × JvckMetadataStore × Device :=
  let s := { s with offset := offset.sector }
  let r := s.writeAllReplicas d
  (r.1, s, r.2)

/-- Writes go straight through the sector I/O. -/
def flush (s : JvckMetadataStore) (d : Device) : VckResult Unit × JvckMetadataStore × Device := (.ok (), s, d)

def loadState (s : JvckMetadataStore) : VckResult VolumeState := .ok (VolumeState.fromU16 s.state)

def storeState (s : JvckMetadataStore) (d : Device) (state : VolumeState) :
    VckResult Unit × JvckMetadataStore × Device :=
  let s := { s with state := state.asU16 }
  let r := s.writeAllReplicas d
  (r.1, s, r.2)

end JvckMetadataStore

/-! ## The reader -/

structure JvckMetadataReader extends Placement where
  header : JvckHeader

namespace JvckMetadataReader

def optionsOf (header : JvckHeader) : JvckMetadataOptions :=
  { useHeader := header.headerReplicaCount.toUInt32
    useFooter := header.footerReplicaCount.toUInt32
    metadataSize := header.metadataSize }

/-- The loop of Phase A: a read error or an unusable header ends it, a bad checksum does not. -/
def openLoop (P : Primitives) (d : Device) : List UInt64 → VckResult JvckMetadataReader
  | [] => .error (.notFound "no JVCK metadata present")
  | lba :: lbas => do
    let block ← readBlock d d.sectorSize lba
    match JvckMetadata.verifyCrc P block.toList with
    | .error _ => openLoop P d lbas
    | .ok () =>
      let header ← JvckMetadata.parse P block.toList
      let options := optionsOf header
      let geometry ← computeGeometry d.sectorSize d.totalSectors options
      return { options, geometry, volumeSectors := d.totalSectors, header }

/-- Phase A, `JvckMetadataReader::open`: the last sector, then sector 0. -/
def openReader (P : Primitives) (d : Device) : VckResult JvckMetadataReader :=
  if d.sectorSize.toNat < 512 then .error (.unsupported "sector size smaller than 512")
  else if d.totalSectors = 0 then .error (.notFound "empty volume")
  else openLoop P d [d.totalSectors - 1, 0]

def replicaCtx (P : Primitives) (r : JvckMetadataReader) (d : Device) (replicaIndex : Nat) : VckResult ReplicaCtx :=
  match r.lbas[replicaIndex]? with
  | none => .error (.notFound "replica index out of range")
  | some lba => do
    let block ← readBlock d r.geometry.sectorSize lba
    JvckMetadata.verifyCrc P block.toList
    return r.ctx r.header d replicaIndex block

def readVendorData (r : JvckMetadataReader) (d : Device) (replicaIndex : Nat) (relSector : UInt64) (len : Nat) :
    VckResult Bytes := do
  let lba ← r.vendorDataLba replicaIndex relSector len
  readSectors d lba len

/-- The loop of Phase B from replica `idx` on: the first selected replica, or the last error. -/
def selectLoop (P : Primitives) (r : JvckMetadataReader) (d : Device)
    (select : ReplicaCtx → VckResult (MetadataCodec × Unsealed)) (idx : Nat) (lastErr : Option VckError) :
    List UInt64 → Except (Option VckError) (MetadataCodec × Unsealed)
  | [] => .error lastErr
  | lba :: lbas =>
    match readBlock d r.geometry.sectorSize lba with
    | .error e => selectLoop P r d select (idx + 1) (some e) lbas
    | .ok block =>
      match JvckMetadata.verifyCrc P block.toList with
      | .error _ => selectLoop P r d select (idx + 1) lastErr lbas
      | .ok () =>
        match select (r.ctx r.header d idx block) with
        | .ok pair => .ok pair
        | .error e => selectLoop P r d select (idx + 1) (some e) lbas

/-- Phase B. -/
def intoStore (P : Primitives) (r : JvckMetadataReader) (d : Device) (vmk : Bytes)
    (select : ReplicaCtx → VckResult (MetadataCodec × Unsealed)) : VckResult JvckMetadataStore :=
  match selectLoop P r d select 0 none r.lbas with
  | .error lastErr => .error (lastErr.getD (.notFound "no JVCK metadata replica could be unsealed"))
  | .ok (codec, unsealed) =>
    let store : JvckMetadataStore :=
      { toPlacement := r.toPlacement
        vmk
        header := r.header
        secrets := unsealed.secrets
        offset := 0
        state := unsealed.state.asU16
        codec }
    let recovered := (store.loadOffset P d).toOption.getD unsealed.encryptedOffset
    .ok { store with offset := recovered }

end JvckMetadataReader

/-- Open with one codec for every replica. -/
def openWith (P : Primitives) (codec : MetadataCodec) (d : Device) (vmk : Bytes) : VckResult JvckMetadataStore := do
  let reader ← JvckMetadataReader.openReader P d
  reader.intoStore P d vmk fun ctx => do
    let unsealed ← codec.unsealPayload ctx vmk
    return (codec, unsealed)

/-- `JvckMetadataStore::open`: the default suite. -/
def JvckMetadataStore.openStore (P : Primitives) (d : Device) (vmk : Bytes) : VckResult JvckMetadataStore :=
  openWith P (jvckCbcCodec P) d vmk

end JvckStore
