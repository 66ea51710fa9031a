import VolumeCrypt.MessageMap
import VolumeCrypt.ProgressWatch

/-!
# The SDK's calls

`sdk/client.go` turns every call into a request on the control device: the record of the call goes
over as a map of named fields, the driver reads its own record from that map, and the answer comes
back the same way. The two records are written down twice, in `sdk/types.go` and in
`lib/windrv/src/ioctl/types.rs`, with rules of their own for what is left out and what may be missing.
-/
namespace RemoteCalls

open ByteString VckTypes MessageMap SweepEngine DriverState StartRequest ControlDevice ProgressWatch
open Dispatch hiding sampleAnswers
open JvckMetadata (Primitives)
open JvckStore (JvckMetadataStore)

/-! ## Scalars -/

def map (v : Value) : Option Entries :=
  match v with
  | .map es => some es
  | _ => none

def array (v : Value) : Option (List Value) :=
  match v with
  | .array vs => some vs
  | _ => none

/-- What serde takes for the types of the fields. -/
def string (v : Value) : Option String :=
  match v with
  | .str s => some s
  | _ => none

/-- `serde_bytes`; in particular nil is refused. -/
def byteBuf (v : Value) : Option Bytes :=
  match v with
  | .bin b => some b
  | _ => none

def bool (v : Value) : Option Bool :=
  match v with
  | .bool b => some b
  | _ => none

def u32 (v : Value) : Option UInt32 :=
  match v with
  | .int i => if 0 ≤ i ∧ i.toNat < UInt32.size then some (UInt32.ofNat i.toNat) else none
  | _ => none

/-- What the SDK's decoder takes; integers are cut to the width of the field. Text that comes as binary, which the
decoder takes too, is left out: the driver sends none. -/
def goString (v : Value) : Option String :=
  match v with
  | .nil => some ""
  | v => string v

def goBool (v : Value) : Option Bool :=
  match v with
  | .nil => some false
  | v => bool v

def goUint64 (v : Value) : Option UInt64 :=
  match v with
  | .nil => some 0
  | .int i => some (UInt64.ofInt i)
  | _ => none

def goUint32 (v : Value) : Option UInt32 :=
  match v with
  | .nil => some 0
  | .int i => some (UInt32.ofInt i)
  | _ => none

/-- An `EncryptionState`; the driver sends none that is negative. -/
def goState (v : Value) : Option Nat :=
  match v with
  | .nil => some 0
  | .int i => some i.toNat
  | _ => none

/-! ## Requests -/

/-- `JvckVolumePrepareRequest`; a slice may be nil. -/
structure JvckVolumePrepareRequest where
  volumePath : String
  ntDevicePath : String
  useHeader : UInt32
  useFooter : UInt32
  metadataSize : UInt32
  vmk : Option Bytes
  metadataBlock : Option Bytes
  isOsVolume : Bool

structure JvckVolumeAttachRequest where
  volumePath : String
  vmk : Option Bytes
  useHeader : UInt32
  useFooter : UInt32
  metadataSize : UInt32
  ntDevicePath : String
  rawPartitionPath : String
  rawDiskPath : String
  partitionStartLba : UInt64

/-- A nil slice is sent as nil. -/
def slice (b : Option Bytes) : Value := b.elim .nil .bin

def JvckVolumePrepareRequest.fields (r : JvckVolumePrepareRequest) : List (String × Option Value) :=
  [("volume_path", some (.str r.volumePath)),
    ("nt_device_path", omitIf (r.ntDevicePath = "") (.str r.ntDevicePath)),
    ("use_header", some (.int r.useHeader.toNat)),
    ("use_footer", some (.int r.useFooter.toNat)),
    ("metadata_size", some (.int r.metadataSize.toNat)),
    ("vmk", some (slice r.vmk)),
    ("metadata_block", omitIf (r.metadataBlock.getD [] = []) (slice r.metadataBlock)),
    ("is_os_volume", omitIf (!r.isOsVolume) (.bool r.isOsVolume))]

def JvckVolumeAttachRequest.fields (r : JvckVolumeAttachRequest) : List (String × Option Value) :=
  [("volume_path", some (.str r.volumePath)),
    ("vmk", some (slice r.vmk)),
    ("use_header", some (.int r.useHeader.toNat)),
    ("use_footer", some (.int r.useFooter.toNat)),
    ("metadata_size", some (.int r.metadataSize.toNat)),
    ("nt_device_path", omitIf (r.ntDevicePath = "") (.str r.ntDevicePath)),
    ("raw_partition_path", omitIf (r.rawPartitionPath = "") (.str r.rawPartitionPath)),
    ("raw_disk_path", omitIf (r.rawDiskPath = "") (.str r.rawDiskPath)),
    ("partition_start_lba", omitIf (r.partitionStartLba = 0) (.int r.partitionStartLba.toNat))]

/-- The driver's record of a PREPARE request. -/
def readPrepareReq (es : Entries) : Option JvckVolumePrepareReq := do
  let volumePath ← required es "volume_path" string
  let ntDevicePath ← optional es "nt_device_path" string ""
  let useHeader ← optional es "use_header" u32 0
  let useFooter ← optional es "use_footer" u32 0
  let metadataSize ← optional es "metadata_size" u32 0
  let vmk ← optional es "vmk" byteBuf []
  let metadataBlock ← optional es "metadata_block" byteBuf []
  let isOsVolume ← optional es "is_os_volume" bool false
  return { volumePath, ntDevicePath, useHeader, useFooter, metadataSize, vmk, metadataBlock, isOsVolume }

/-- The layout of an ATTACH request is read and not used. -/
def readAttachReq (es : Entries) : Option JvckVolumeAttachReq := do
  let volumePath ← required es "volume_path" string
  let vmk ← required es "vmk" byteBuf
  let _ ← optional es "use_header" u32 0
  let _ ← optional es "use_footer" u32 0
  let _ ← optional es "metadata_size" u32 0
  let ntDevicePath ← optional es "nt_device_path" string ""
  let rawPartitionPath ← optional es "raw_partition_path" string ""
  return { volumePath, ntDevicePath, rawPartitionPath, vmk }

/-- The requests that carry a path only. -/
def volumeFields (volumePath : String) : List (String × Option Value) := [("volume_path", some (.str volumePath))]

def readVolumeReq (es : Entries) : Option VolumeRequest := (required es "volume_path" string).map VolumeRequest.mk

/-! ## Responses -/

def prepareFields (r : JvckVolumePrepareResp) : List (String × Option Value) :=
  [("offset_sector", some (.int r.offsetSector.toNat)),
    ("data_sectors", some (.int r.dataSectors.toNat)),
    ("sector_size", some (.int r.sectorSize.toNat)),
    ("raw_partition_path", omitIf (r.rawPartitionPath = "") (.str r.rawPartitionPath)),
    ("raw_disk_path", omitIf (r.rawDiskPath = "") (.str r.rawDiskPath)),
    ("partition_start_lba", some (.int r.partitionStartLba.toNat)),
    ("fully_attached", some (.bool r.fullyAttached))]

def readPrepareResp (es : Entries) : Option JvckVolumePrepareResp := do
  let offsetSector ← filled es "offset_sector" goUint64 0
  let dataSectors ← filled es "data_sectors" goUint64 0
  let sectorSize ← filled es "sector_size" goUint32 0
  let rawPartitionPath ← filled es "raw_partition_path" goString ""
  let rawDiskPath ← filled es "raw_disk_path" goString ""
  let partitionStartLba ← filled es "partition_start_lba" goUint64 0
  let fullyAttached ← filled es "fully_attached" goBool false
  return { offsetSector, dataSectors, sectorSize, rawPartitionPath, rawDiskPath, partitionStartLba, fullyAttached }

def attachFields (r : JvckVolumeAttachResp) : List (String × Option Value) :=
  [("offset_sector", some (.int r.offsetSector.toNat)),
    ("total_sectors", some (.int r.totalSectors.toNat)),
    ("sector_size", some (.int r.sectorSize.toNat))]

def readAttachResp (es : Entries) : Option JvckVolumeAttachResp := do
  let offsetSector ← filled es "offset_sector" goUint64 0
  let totalSectors ← filled es "total_sectors" goUint64 0
  let sectorSize ← filled es "sector_size" goUint32 0
  return { offsetSector, totalSectors, sectorSize }

def statusFields (s : VolumeStatus) : List (String × Option Value) :=
  [("volume_path", some (.str s.volumePath)),
    ("state", some (.int s.state)),
    ("encrypted_sector", some (.int s.encryptedSector.toNat)),
    ("total_sectors", some (.int s.totalSectors.toNat)),
    ("sector_size", some (.int s.sectorSize.toNat)),
    ("is_attached", some (.bool s.isAttached)),
    ("filter_below_fsd", some (.bool s.filterBelowFsd))]

def readStatus (es : Entries) : Option VolumeStatus := do
  let volumePath ← filled es "volume_path" goString ""
  let state ← filled es "state" goState 0
  let encryptedSector ← filled es "encrypted_sector" goUint64 0
  let totalSectors ← filled es "total_sectors" goUint64 0
  let sectorSize ← filled es "sector_size" goUint32 0
  let isAttached ← filled es "is_attached" goBool false
  let filterBelowFsd ← filled es "filter_below_fsd" goBool false
  return { volumePath, state, encryptedSector, totalSectors, sectorSize, isAttached, filterBelowFsd }

def progressFields (ev : ProgressEvent) : List (String × Option Value) :=
  [("encrypted_sector", some (.int ev.encryptedSector.toNat)),
    ("total_sectors", some (.int ev.totalSectors.toNat)),
    ("state", some (.int ev.state)),
    ("error", omitIf (ev.error = "") (.str ev.error))]

def readProgress (es : Entries) : Option ProgressEvent := do
  let encryptedSector ← filled es "encrypted_sector" goUint64 0
  let totalSectors ← filled es "total_sectors" goUint64 0
  let state ← filled es "state" goState 0
  let error ← filled es "error" goString ""
  return { encryptedSector, totalSectors, state, error }

def entryFields (e : VolumeListEntry) : List (String × Option Value) :=
  [("volume_path", some (.str e.volumePath)),
    ("state", some (.int e.state)),
    ("encrypted_sector", some (.int e.encryptedSector.toNat)),
    ("total_sectors", some (.int e.totalSectors.toNat)),
    ("sector_size", some (.int e.sectorSize.toNat)),
    ("is_os_volume", some (.bool e.isOsVolume))]

def readEntry (es : Entries) : Option VolumeListEntry := do
  let volumePath ← filled es "volume_path" goString ""
  let state ← filled es "state" goState 0
  let encryptedSector ← filled es "encrypted_sector" goUint64 0
  let totalSectors ← filled es "total_sectors" goUint64 0
  let sectorSize ← filled es "sector_size" goUint32 0
  let isOsVolume ← filled es "is_os_volume" goBool false
  return { volumePath, state, encryptedSector, totalSectors, sectorSize, isOsVolume }

def listFields (volumes : List VolumeListEntry) : List (String × Option Value) :=
  [("volumes", some (.array (volumes.map fun e => .map (present (entryFields e)))))]

/-- A list of volumes; nil is the empty list. -/
def goVolumes (v : Value) : Option (List VolumeListEntry) :=
  match v with
  | .nil => some []
  | v => (array v).bind (List.mapM fun e => (map e).bind readEntry)

def readList (es : Entries) : Option (List VolumeListEntry) := filled es "volumes" goVolumes []

/-! ## Both sides of the wire -/

/-- The two implementations of MessagePack, with the texts of their errors. -/
structure Formats where
  marshal : Value → Except String Bytes
  unmarshal : Bytes → Except String Value
  fromSlice : Bytes → Except String Value
  toVec : Value → Except String Bytes
  /-- What serde says about a value that is not of the type that is asked for, and what the SDK's decoder says. -/
  serdeError : Value → String
  goError : Value → String

/-- What one side writes the other side reads. -/
structure Formats.Agree (F : Formats) : Prop where
  request : ∀ {v b}, F.marshal v = .ok b → F.fromSlice b = .ok v
  response : ∀ {v b}, F.toVec v = .ok b → F.unmarshal b = .ok v

namespace Formats

variable (F : Formats)

def decodeReq {α : Type} (read : Entries → Option α) (input : Bytes) : VckResult α :=
  match F.fromSlice input with
  | .error e => .error (.msgpackDecode e)
  | .ok v =>
    match (map v).bind read with
    | none => .error (.msgpackDecode (F.serdeError v))
    | some req => .ok req

def encodeResp (fields : List (String × Option Value)) : VckResult Bytes :=
  (F.toVec (.map (present fields))).mapError VckError.msgpackEncode

def wire : Wire where
  prepareReq := F.decodeReq readPrepareReq
  attachReq := F.decodeReq readAttachReq
  volumeReq := F.decodeReq readVolumeReq
  prepareResp := fun r => F.encodeResp (prepareFields r)
  attachResp := fun r => F.encodeResp (attachFields r)
  emptyResp := F.encodeResp []
  status := fun s => F.encodeResp (statusFields s)
  progress := fun ev => F.encodeResp (progressFields ev)
  list := fun volumes => F.encodeResp (listFields volumes)

/-- `msgpack.Unmarshal` into a record. The driver sends its records as maps, so the array form is left out. -/
def unmarshalInto {α : Type} (read : Entries → Option α) (b : Bytes) : Except String α := do
  let v ← F.unmarshal b
  match (map v).bind read with
  | none => .error (F.goError v)
  | some x => .ok x

/-- The records of the sweep commands. -/
def msgpack : Msgpack where
  volumeRequest := fun req => F.marshal (.map (present (volumeFields req.volumePath)))
  empty := F.unmarshalInto fun _ => some ()
  progressEvent := F.unmarshalInto readProgress

end Formats

/-! ## Calls -/

/-- The methods of `Client` but for the benchmark, and the poll of `WatchProgress`. -/
inductive Call where
  | prepare (req : JvckVolumePrepareRequest)
  | attach (req : JvckVolumeAttachRequest)
  | detach (volumePath : String)
  | getStatus (volumePath : String)
  | getProgress (volumePath : String)
  | startEncrypt (volumePath : String)
  | startDecrypt (volumePath : String)
  | pause (volumePath : String)
  | listVolumes

inductive Response where
  | prepared (r : JvckVolumePrepareResp)
  | attached (r : JvckVolumeAttachResp)
  | status (s : VolumeStatus)
  | progress (ev : ProgressEvent)
  | volumes (vs : List VolumeListEntry)
  | done

namespace Call

def ioctl : Call → Ioctl
  | prepare _ => .jvckPrepare
  | attach _ => .jvckAttach
  | detach _ => .detach
  | getStatus _ => .getStatus
  | getProgress _ => .getProgress
  | startEncrypt _ => .startEncrypt
  | startDecrypt _ => .startDecrypt
  | pause _ => .pause
  | listVolumes => .listVolumes

/-- The path of the call as an NT path. -/
def resolve (names : String → Except String String) : Call → Except String Call
  | prepare req => (toNTPath names req.volumePath).map fun nt => prepare { req with volumePath := nt }
  | attach req => (toNTPath names req.volumePath).map fun nt => attach { req with volumePath := nt }
  | detach path => (toNTPath names path).map detach
  | getStatus path => (toNTPath names path).map getStatus
  | getProgress path => (toNTPath names path).map getProgress
  | startEncrypt path => (toNTPath names path).map startEncrypt
  | startDecrypt path => (toNTPath names path).map startDecrypt
  | pause path => (toNTPath names path).map pause
  | listVolumes => .ok listVolumes

def fields : Call → List (String × Option Value)
  | prepare req => req.fields
  | attach req => req.fields
  | detach path | getStatus path | getProgress path | startEncrypt path | startDecrypt path | pause path =>
    volumeFields path
  | listVolumes => []

def read : Call → Entries → Option Response
  | prepare _, es => (readPrepareResp es).map .prepared
  | attach _, es => (readAttachResp es).map .attached
  | getStatus _, es => (readStatus es).map .status
  | getProgress _, es => (readProgress es).map .progress
  | listVolumes, es => (readList es).map .volumes
  | _, _ => some .done

end Call

section Client

variable (F : Formats) (P : Primitives)

/-- `deviceControl` of the SDK at the records of a call. -/
def deviceControl (k : Answers) (requestor : Requestor) (c : Call) (w : World) : Except String Response × World :=
  match F.marshal (.map (present c.fields)) with
  | .error e => (.error e, w)
  | .ok inBuf =>
    let (out, w) := deviceIoControl F.wire P k requestor (sdkCode c.ioctl) inBuf w
    (out >>= F.unmarshalInto c.read, w)

def call (names : String → Except String String) (k : Answers) (requestor : Requestor) (c : Call) (w : World) :
    Except String Response × World :=
  match c.resolve names with
  | .error e => (.error e, w)
  | .ok c => deviceControl F P k requestor c w

end Client

/-! ## The driver without the wire -/

/-- The requests as the handlers of the driver see them. -/
inductive Request where
  | prepare (req : JvckVolumePrepareReq)
  | attach (req : JvckVolumeAttachReq)
  | detach (req : VolumeRequest)
  | getStatus (req : VolumeRequest)
  | getProgress (req : VolumeRequest)
  | startEncrypt (req : VolumeRequest)
  | startDecrypt (req : VolumeRequest)
  | pause (req : VolumeRequest)
  | listVolumes

/-- The request that a call stands for; without a key there is none. -/
def Call.request : Call → Option Request
  | prepare r => r.vmk.map fun vmk => .prepare
    ⟨r.volumePath, r.ntDevicePath, r.useHeader, r.useFooter, r.metadataSize, vmk, r.metadataBlock.getD [], r.isOsVolume⟩
  | attach r => r.vmk.map fun vmk => .attach ⟨r.volumePath, r.ntDevicePath, r.rawPartitionPath, vmk⟩
  | detach path => some (.detach ⟨path⟩)
  | getStatus path => some (.getStatus ⟨path⟩)
  | getProgress path => some (.getProgress ⟨path⟩)
  | startEncrypt path => some (.startEncrypt ⟨path⟩)
  | startDecrypt path => some (.startDecrypt ⟨path⟩)
  | pause path => some (.pause ⟨path⟩)
  | listVolumes => some .listVolumes

def statusOf (k : Answers) (req : VolumeRequest) (w : World) : VolumeStatus :=
  let filterBelowFsd := (findFilterForVolume k.find (win32VolumePathToNt req.volumePath) w.state).isSome
  match resolveVolume k.find req.volumePath w.state with
  | some (_, v) =>
    ⟨v.volumePath, asWire v.encryption.state, v.encryption.encryptedOffset.sector,
      v.encryption.encryptedOffset.totalSectors, v.sectorSize, true, filterBelowFsd⟩
  | none => ⟨req.volumePath, 0, 0, 0, 0, false, filterBelowFsd⟩

def progressOf (k : Answers) (req : VolumeRequest) (w : World) : VckResult ProgressEvent :=
  match resolveVolume k.find req.volumePath w.state with
  | none => .error (.notFound "volume is not attached")
  | some (_, v) =>
    .ok ⟨v.encryption.encryptedOffset.sector, v.encryption.encryptedOffset.totalSectors, asWire v.encryption.state, ""⟩

def volumesOf (w : World) : List VolumeListEntry :=
  w.state.all.map fun (_, v) =>
    ⟨v.volumePath, asWire v.encryption.state, v.encryption.encryptedOffset.sector,
      v.encryption.encryptedOffset.totalSectors, v.sectorSize, v.isOsVolume⟩

/-- What the driver does for a request. -/
def Request.serve (P : Primitives) (k : Answers) (w : World) : Request → VckResult Response × World
  | prepare req => (onState w (handleJvckPrepare k.prepare (.ok req) w.state)).map (Except.map .prepared) id
  | attach req => (onState w (handleJvckAttach k.attach (.ok req) w.state)).map (Except.map .attached) id
  | detach req => (onState w (handleDetach k.detach (.ok req) w.state)).map (Except.map fun _ => .done) id
  | getStatus req => (.ok (.status (statusOf k req w)), w)
  | getProgress req => ((progressOf k req w).map .progress, w)
  | startEncrypt req => (handleStartEncrypt P k.find (.ok req) w).map (Except.map fun _ => .done) id
  | startDecrypt req => (handleStartDecrypt P k.find (.ok req) w).map (Except.map fun _ => .done) id
  | pause req => (handlePause k (.ok req) w).map (Except.map fun _ => .done) id
  | listVolumes => (.ok (.volumes (volumesOf w)), w)

/-- The record of a response. -/
def Response.fields : Response → List (String × Option Value)
  | prepared r => prepareFields r
  | attached r => attachFields r
  | status s => statusFields s
  | progress ev => progressFields ev
  | volumes vs => listFields vs
  | done => []

section Handled

variable (F : Formats) (P : Primitives)

/-- The caller's buffer takes the response. -/
def fits (x : Response) : Bool :=
  match F.encodeResp x.fields with
  | .error _ => false
  | .ok out => out.length ≤ outLength

/-- What the driver takes on for a call: the path has an NT path, there is a key where one is needed, and the caller may
ask for it. -/
def accepted (names : String → Except String String) (requestor : Requestor) (c : Call) : Option Request :=
  match c.resolve names with
  | .error _ => none
  | .ok c =>
    match F.marshal (.map (present c.fields)), authorize ⟨c.ioctl.code, requestor.mode, requestor.token⟩ with
    | .ok _, .ok () => c.request
    | _, _ => none

/-- A call without the wire: what the caller gets, and what becomes of the driver. -/
def handled (names : String → Except String String) (k : Answers) (requestor : Requestor) (c : Call) (w : World) :
    Option Response × World :=
  match accepted F names requestor c with
  | none => (none, w)
  | some r => ((r.serve P k w).1.toOption.filter (fits F), (r.serve P k w).2)

end Handled

/-! ## Clients -/

/-- The driver, and the results of the calls so far. -/
structure Session where
  world : World
  results : List (Except String Response)

/-- A client makes a call, with the NT paths of the moment, or the driver does something else. -/
inductive Turn where
  | call (names : String → Except String String) (k : Answers) (requestor : Requestor) (c : Call)
  | driver (e : Shutdown.Later)

section Turns

variable (F : Formats) (P : Primitives)

def step (s : Session) : Turn → Option Session
  | .call names k requestor c =>
    let (r, world) := call F P names k requestor c s.world
    some ⟨world, s.results ++ [r]⟩
  | .driver e => (Shutdown.step F.wire P s.world e).map fun world => { s with world }

/-- The same without the wire. -/
def serveTurn (s : World × List (Option Response)) : Turn → World × List (Option Response)
  | .call names k requestor c =>
    let (r, world) := handled F P names k requestor c s.1
    (world, s.2 ++ [r])
  | .driver e => ((Shutdown.step F.wire P s.1 e).getD s.1, s.2)

end Turns

/-! ## Records across the wire -/

section Scalars

@[simp] theorem string_str (s : String) : string (.str s) = some s := rfl
@[simp] theorem byteBuf_bin (b : Bytes) : byteBuf (.bin b) = some b := rfl
@[simp] theorem byteBuf_nil : byteBuf .nil = none := rfl
@[simp] theorem slice_some (b : Bytes) : slice (some b) = .bin b := rfl
@[simp] theorem slice_none : slice none = .nil := rfl
@[simp] theorem bool_bool (b : Bool) : bool (.bool b) = some b := rfl
@[simp] theorem goString_str (s : String) : goString (.str s) = some s := rfl
@[simp] theorem goBool_bool (b : Bool) : goBool (.bool b) = some b := rfl
@[simp] theorem goState_int (n : Nat) : goState (.int n) = some n := rfl

@[simp] theorem u32_toNat (x : UInt32) : u32 (.int x.toNat) = some x := by
  have hlt : ((x.toNat : Int)).toNat < UInt32.size := x.toNat_lt
  rw [u32, if_pos ⟨by omega, hlt⟩, Int.toNat_natCast, UInt32.ofNat_toNat]

@[simp] theorem goUint32_toNat (x : UInt32) : goUint32 (.int x.toNat) = some x := by
  have hlt := x.toNat_lt
  have hmod : ((x.toNat : Int) % 2 ^ 32).toNat = x.toNat := by omega
  rw [goUint32, UInt32.ofInt, hmod, UInt32.ofNat_toNat]

@[simp] theorem goUint64_toNat (x : UInt64) : goUint64 (.int x.toNat) = some x := by
  have hlt := x.toNat_lt
  have hmod : ((x.toNat : Int) % 2 ^ 64).toNat = x.toNat := by omega
  rw [goUint64, UInt64.ofInt, hmod, UInt64.ofNat_toNat]

@[simp] theorem elim_text (s : String) : (omitIf (s = "") (.str s)).elim (some "") string = some s :=
  elim_omitIf rfl fun h => (of_decide_eq_true h).symm

@[simp] theorem elim_goText (s : String) : (omitIf (s = "") (.str s)).elim (some "") goString = some s :=
  elim_omitIf rfl fun h => (of_decide_eq_true h).symm

@[simp] theorem elim_flag (b : Bool) : (omitIf (!b) (.bool b)).elim (some false) bool = some b := by
  cases b <;> rfl

/-- A slice that is nil or empty is left out, and read as the empty one. -/
@[simp] theorem elim_slice (b : Option Bytes) :
    (omitIf (b.getD [] = []) (slice b)).elim (some []) byteBuf = some (b.getD []) := by
  cases b with
  | none => rfl
  | some b => exact elim_omitIf rfl fun h => (of_decide_eq_true h).symm

end Scalars

section Records

theorem readPrepareReq_present (r : JvckVolumePrepareRequest) :
    readPrepareReq (present r.fields) = r.vmk.map fun vmk =>
      ⟨r.volumePath, r.ntDevicePath, r.useHeader, r.useFooter, r.metadataSize, vmk, r.metadataBlock.getD [],
        r.isOsVolume⟩ := by
  have hnodup : (r.fields.map Prod.fst).Nodup := by simp [JvckVolumePrepareRequest.fields]
  simp only [readPrepareReq, required_present hnodup, optional_present hnodup]
  cases hvmk : r.vmk with
  | none => simp [JvckVolumePrepareRequest.fields, List.lookup_cons, hvmk]
  | some vmk => simp [JvckVolumePrepareRequest.fields, List.lookup_cons, hvmk]

theorem readAttachReq_present (r : JvckVolumeAttachRequest) :
    readAttachReq (present r.fields) =
      r.vmk.map fun vmk => ⟨r.volumePath, r.ntDevicePath, r.rawPartitionPath, vmk⟩ := by
  have hnodup : (r.fields.map Prod.fst).Nodup := by simp [JvckVolumeAttachRequest.fields]
  simp only [readAttachReq, required_present hnodup, optional_present hnodup]
  cases hvmk : r.vmk with
  | none => simp [JvckVolumeAttachRequest.fields, List.lookup_cons, hvmk]
  | some vmk => simp [JvckVolumeAttachRequest.fields, List.lookup_cons, hvmk]

theorem readVolumeReq_present (path : String) : readVolumeReq (present (volumeFields path)) = some ⟨path⟩ := by
  have hnodup : ((volumeFields path).map Prod.fst).Nodup := by simp [volumeFields]
  simp only [readVolumeReq, required_present hnodup]
  simp [volumeFields]

theorem readPrepareResp_present (r : JvckVolumePrepareResp) : readPrepareResp (present (prepareFields r)) = some r := by
  have hnodup : ((prepareFields r).map Prod.fst).Nodup := by simp [prepareFields]
  simp only [readPrepareResp, filled_present hnodup]
  simp [prepareFields, List.lookup_cons]

theorem readAttachResp_present (r : JvckVolumeAttachResp) : readAttachResp (present (attachFields r)) = some r := by
  have hnodup : ((attachFields r).map Prod.fst).Nodup := by simp [attachFields]
  simp only [readAttachResp, filled_present hnodup]
  simp [attachFields, List.lookup_cons]

theorem readStatus_present (s : VolumeStatus) : readStatus (present (statusFields s)) = some s := by
  have hnodup : ((statusFields s).map Prod.fst).Nodup := by simp [statusFields]
  simp only [readStatus, filled_present hnodup]
  simp [statusFields, List.lookup_cons]

theorem readProgress_present (ev : ProgressEvent) : readProgress (present (progressFields ev)) = some ev := by
  have hnodup : ((progressFields ev).map Prod.fst).Nodup := by simp [progressFields]
  simp only [readProgress, filled_present hnodup]
  simp [progressFields, List.lookup_cons]

theorem readEntry_present (e : VolumeListEntry) : readEntry (present (entryFields e)) = some e := by
  have hnodup : ((entryFields e).map Prod.fst).Nodup := by simp [entryFields]
  simp only [readEntry, filled_present hnodup]
  simp [entryFields, List.lookup_cons]

theorem mapM_entries (vs : List VolumeListEntry) :
    (vs.map fun e => Value.map (present (entryFields e))).mapM (fun v => (map v).bind readEntry) = some vs := by
  induction vs with
  | nil => rfl
  | cons e vs ih =>
    have hentry : (map (.map (present (entryFields e)))).bind readEntry = some e := readEntry_present e
    rw [List.map_cons, List.mapM_cons, hentry, ih]
    rfl

theorem readList_present (vs : List VolumeListEntry) : readList (present (listFields vs)) = some vs := by
  have hnodup : ((listFields vs).map Prod.fst).Nodup := by simp [listFields]
  simp only [readList, filled_present hnodup]
  simp only [listFields, List.lookup_cons_self, Option.join_some, Option.elim_some]
  exact mapM_entries vs

end Records

/-! ## A call is the handler's work -/

section Transparent

variable {F : Formats} {P : Primitives} {k : Answers} {requestor : Requestor} {names : String → Except String String}
  {c : Call} {r : Request} {x : Response} {w w' : World} {input inBuf out : Bytes} {ctx : IoctlAuthContext}

theorem decodeReq_present {α : Type} {read : Entries → Option α} {fields : List (String × Option Value)}
    (hin : F.fromSlice input = .ok (.map (present fields))) :
    F.decodeReq read input = match read (present fields) with
      | none => .error (.msgpackDecode (F.serdeError (.map (present fields))))
      | some req => .ok req := by
  rw [Formats.decodeReq, hin]
  rfl

theorem handleGetStatus_eq {W : Wire} {req : VolumeRequest} (hreq : W.volumeReq input = .ok req) :
    handleGetStatus W k input w = W.status (statusOf k req w) := by
  simp only [handleGetStatus, hreq, bind, Except.bind, statusOf]
  cases resolveVolume k.find req.volumePath w.state <;> rfl

theorem handleGetProgress_eq {W : Wire} {req : VolumeRequest} (hreq : W.volumeReq input = .ok req) :
    handleGetProgress W k input w = progressOf k req w >>= W.progress := by
  simp only [handleGetProgress, hreq, bind, Except.bind, progressOf]
  cases resolveVolume k.find req.volumePath w.state <;> rfl

/-- The answer of a handler, encoded after it has been named. -/
theorem respond_map {α : Type} (encode : α → VckResult Bytes) (f : α → Response)
    (hencode : ∀ a, encode a = F.encodeResp (f a).fields) (answer : VckResult α × World) :
    respond encode answer =
      ((answer.map (Except.map f) id).1 >>= fun x => F.encodeResp x.fields, (answer.map (Except.map f) id).2) := by
  obtain ⟨a, w⟩ := answer
  cases a with
  | error e => rfl
  | ok a => exact congrArg (·, w) (hencode a)

theorem volumeReq_present {path : String} (hin : F.fromSlice input = .ok (.map (present (volumeFields path)))) :
    F.wire.volumeReq input = .ok ⟨path⟩ := by
  refine (decodeReq_present hin).trans ?_
  rw [readVolumeReq_present]

theorem prepareReq_present (req : JvckVolumePrepareRequest)
    (hin : F.fromSlice input = .ok (.map (present req.fields))) :
    F.wire.prepareReq input = match req.vmk with
      | none => .error (.msgpackDecode (F.serdeError (.map (present req.fields))))
      | some vmk => .ok ⟨req.volumePath, req.ntDevicePath, req.useHeader, req.useFooter, req.metadataSize, vmk,
          req.metadataBlock.getD [], req.isOsVolume⟩ := by
  refine (decodeReq_present hin).trans ?_
  rw [readPrepareReq_present]
  cases req.vmk <;> rfl

theorem attachReq_present (req : JvckVolumeAttachRequest) (hin : F.fromSlice input = .ok (.map (present req.fields))) :
    F.wire.attachReq input = match req.vmk with
      | none => .error (.msgpackDecode (F.serdeError (.map (present req.fields))))
      | some vmk => .ok ⟨req.volumePath, req.ntDevicePath, req.rawPartitionPath, vmk⟩ := by
  refine (decodeReq_present hin).trans ?_
  rw [readAttachReq_present]
  cases req.vmk <;> rfl

/-- A request without a key is refused before the handler looks at it. -/
theorem dispatch_refused (hin : F.fromSlice input = .ok (.map (present c.fields))) (hrequest : c.request = none)
    (hauth : authorize ctx = .ok ()) (hcode : ctx.ioctlCode = c.ioctl.code) :
    ∃ e, dispatchIoctl F.wire P k ctx input w = (.error e, w) := by
  rw [dispatchIoctl, hauth, hcode, Ioctl.ofCode_code]
  cases c with
  | prepare req =>
    have hvmk : req.vmk = none := Option.map_eq_none_iff.mp hrequest
    have hread := prepareReq_present req hin
    rw [hvmk] at hread
    simp only [Call.ioctl, hread]
    exact ⟨_, rfl⟩
  | attach req =>
    have hvmk : req.vmk = none := Option.map_eq_none_iff.mp hrequest
    have hread := attachReq_present req hin
    rw [hvmk] at hread
    simp only [Call.ioctl, hread]
    exact ⟨_, rfl⟩
  | _ => cases hrequest

/-- Any other request is decoded, served and its answer is encoded. -/
theorem dispatch_served (hin : F.fromSlice input = .ok (.map (present c.fields))) (hrequest : c.request = some r)
    (hauth : authorize ctx = .ok ()) (hcode : ctx.ioctlCode = c.ioctl.code) :
    dispatchIoctl F.wire P k ctx input w =
      ((r.serve P k w).1 >>= fun x => F.encodeResp x.fields, (r.serve P k w).2) := by
  rw [dispatchIoctl, hauth, hcode, Ioctl.ofCode_code]
  cases c with
  | prepare req =>
    obtain ⟨vmk, hvmk, rfl⟩ := Option.map_eq_some_iff.mp hrequest
    have hread := prepareReq_present req hin
    rw [hvmk] at hread
    simp only [Call.ioctl, hread]
    exact respond_map F.wire.prepareResp .prepared (fun _ => rfl) _
  | attach req =>
    obtain ⟨vmk, hvmk, rfl⟩ := Option.map_eq_some_iff.mp hrequest
    have hread := attachReq_present req hin
    rw [hvmk] at hread
    simp only [Call.ioctl, hread]
    exact respond_map F.wire.attachResp .attached (fun _ => rfl) _
  | getStatus path =>
    obtain rfl := Option.some.inj hrequest
    simp only [Call.ioctl, handleGetStatus_eq (volumeReq_present hin)]
    rfl
  | getProgress path =>
    obtain rfl := Option.some.inj hrequest
    simp only [Call.ioctl, handleGetProgress_eq (volumeReq_present hin), Request.serve]
    cases progressOf k ⟨path⟩ w <;> rfl
  | detach path | startEncrypt path | startDecrypt path | pause path =>
    obtain rfl := Option.some.inj hrequest
    simp only [Call.ioctl, volumeReq_present hin]
    exact respond_map (fun _ => F.wire.emptyResp) (fun _ => .done) (fun _ => rfl) _
  | listVolumes =>
    obtain rfl := Option.some.inj hrequest
    rfl

/-- The SDK reads the answer that the driver has given. -/
theorem read_served (hrequest : c.request = some r) (hserve : (r.serve P k w).1 = .ok x) :
    c.read (present x.fields) = some x := by
  have hmap {α : Type} {f : α → Response} {answer : VckResult α × World}
      (h : (answer.map (Except.map f) id).1 = .ok x) : ∃ a, x = f a := by
    obtain ⟨a, _⟩ := answer
    cases a with
    | error e => cases h
    | ok a => exact ⟨a, (Except.ok.inj h).symm⟩
  cases c with
  | prepare req =>
    obtain ⟨vmk, -, rfl⟩ := Option.map_eq_some_iff.mp hrequest
    obtain ⟨a, rfl⟩ := hmap hserve
    exact congrArg (Option.map _) (readPrepareResp_present a)
  | attach req =>
    obtain ⟨vmk, -, rfl⟩ := Option.map_eq_some_iff.mp hrequest
    obtain ⟨a, rfl⟩ := hmap hserve
    exact congrArg (Option.map _) (readAttachResp_present a)
  | getStatus path =>
    obtain rfl := Option.some.inj hrequest
    obtain rfl := Except.ok.inj hserve
    exact congrArg (Option.map _) (readStatus_present _)
  | getProgress path =>
    obtain rfl := Option.some.inj hrequest
    change (progressOf k ⟨path⟩ w).map Response.progress = .ok x at hserve
    cases hprogress : progressOf k ⟨path⟩ w with
    | error e =>
      rw [hprogress] at hserve
      cases hserve
    | ok ev =>
      rw [hprogress] at hserve
      obtain rfl := Except.ok.inj hserve
      exact congrArg (Option.map _) (readProgress_present ev)
  | listVolumes =>
    obtain rfl := Option.some.inj hrequest
    obtain rfl := Except.ok.inj hserve
    exact congrArg (Option.map _) (readList_present _)
  | detach path | startEncrypt path | startDecrypt path | pause path =>
    obtain rfl := Option.some.inj hrequest
    obtain ⟨a, rfl⟩ := hmap hserve
    rfl

/-- A response that is too long is lost. -/
theorem exchange_toOption {W : Wire} {code : UInt32} {α : Type} (unmarshal : Bytes → Except String α) :
    ((deviceIoControl W P k requestor code inBuf w).1 >>= unmarshal).toOption =
      (dispatchIoctl W P k ⟨code, requestor.mode, requestor.token⟩ inBuf w).1.toOption.bind fun out =>
        if out.length ≤ outLength then (unmarshal out).toOption else none := by
  have hworld : (deviceIoControl W P k requestor code inBuf w).2 =
      (dispatchIoctl W P k ⟨code, requestor.mode, requestor.token⟩ inBuf w).2 := deviceIoControl_world
  have hiff (out : Bytes) : (deviceIoControl W P k requestor code inBuf w).1 = .ok out ↔
      (dispatchIoctl W P k ⟨code, requestor.mode, requestor.token⟩ inBuf w).1 = .ok out ∧ out.length ≤ outLength := by
    constructor
    · intro h
      obtain ⟨hd, hle⟩ := deviceIoControl_ok_iff.mp (Prod.ext h hworld)
      exact ⟨congrArg Prod.fst hd, hle⟩
    · rintro ⟨hd, hle⟩
      exact congrArg Prod.fst (deviceIoControl_ok_iff.mpr ⟨Prod.ext hd rfl, hle⟩)
  generalize (deviceIoControl W P k requestor code inBuf w).1 = received at hiff ⊢
  generalize (dispatchIoctl W P k ⟨code, requestor.mode, requestor.token⟩ inBuf w).1 = sent at hiff ⊢
  cases sent with
  | error e =>
    cases received with
    | error e' => rfl
    | ok out => cases ((hiff out).mp rfl).1
  | ok out =>
    by_cases hle : out.length ≤ outLength
    · rw [(hiff out).mpr ⟨rfl, hle⟩]
      exact (if_pos hle).symm
    · cases received with
      | error e' => exact (if_neg hle).symm
      | ok out' =>
        obtain ⟨heq, hle'⟩ := (hiff out').mp rfl
        rw [Except.ok.inj heq] at hle
        exact absurd hle' hle

theorem unmarshalInto_encodeResp (hF : F.Agree) {α : Type} {read : Entries → Option α} {y : α}
    {fields : List (String × Option Value)} (henc : F.encodeResp fields = .ok out)
    (hread : read (present fields) = some y) :
    F.unmarshalInto read out = .ok y := by
  rw [Formats.encodeResp] at henc
  cases hvec : F.toVec (.map (present fields)) with
  | error e =>
    rw [hvec] at henc
    cases henc
  | ok b =>
    rw [hvec] at henc
    obtain rfl := Except.ok.inj henc
    rw [Formats.unmarshalInto, hF.response hvec]
    simp only [bind, Except.bind, map, Option.bind_some, hread]

/-- What the sweep commands ask of the two sides. -/
theorem msgpack_agrees (hF : F.Agree) : F.msgpack.Agrees F.wire := by
  refine ⟨fun h => volumeReq_present (hF.request h), ?_⟩
  intro ev b h
  exact unmarshalInto_encodeResp hF h (readProgress_present ev)

/-- What comes back is what the handler has answered, if that fits. -/
theorem received_served (hF : F.Agree) (hrequest : c.request = some r) :
    (((r.serve P k w).1 >>= fun x => F.encodeResp x.fields).toOption.bind fun out =>
        if out.length ≤ outLength then (F.unmarshalInto c.read out).toOption else none) =
      (r.serve P k w).1.toOption.filter (fits F) := by
  cases hserve : (r.serve P k w).1 with
  | error e => rfl
  | ok x =>
    cases henc : F.encodeResp x.fields with
    | error e =>
      have hfits : fits F x = false := by rw [fits, henc]
      simp [bind, Except.bind, Except.toOption, henc, hfits, Option.filter_some]
    | ok out =>
      have hfits : fits F x = decide (out.length ≤ outLength) := by rw [fits, henc]
      have hread := unmarshalInto_encodeResp hF henc (read_served hrequest hserve)
      by_cases hle : out.length ≤ outLength
      · simp [bind, Except.bind, Except.toOption, henc, hfits, hle, hread, Option.filter_some]
      · simp [bind, Except.bind, Except.toOption, henc, hfits, hle, Option.filter_some]

theorem deviceControl_eq (hmarshal : F.marshal (.map (present c.fields)) = .ok inBuf) :
    deviceControl F P k requestor c w =
      ((deviceIoControl F.wire P k requestor c.ioctl.code inBuf w).1 >>= F.unmarshalInto c.read,
        (deviceIoControl F.wire P k requestor c.ioctl.code inBuf w).2) := by
  rw [deviceControl, hmarshal, sdkCode_eq]

/-- A call does what the handler does for its request, and what the driver does not accept has no effect. -/
theorem call_handled (hF : F.Agree) :
    ((call F P names k requestor c w).1.toOption, (call F P names k requestor c w).2) =
      handled F P names k requestor c w := by
  unfold call handled accepted
  cases c.resolve names with
  | error e => rfl
  | ok c =>
    cases hmarshal : F.marshal (.map (present c.fields)) with
    | error e =>
      simp only [deviceControl, hmarshal]
      rfl
    | ok inBuf =>
      have hin := hF.request hmarshal
      simp only [deviceControl_eq hmarshal, hmarshal, exchange_toOption, deviceIoControl_world]
      cases hauth : authorize ⟨c.ioctl.code, requestor.mode, requestor.token⟩ with
      | error e =>
        have hd : dispatchIoctl F.wire P k ⟨c.ioctl.code, requestor.mode, requestor.token⟩ inBuf w = (.error e, w) := by
          rw [dispatchIoctl, hauth]
        rw [hd]
        rfl
      | ok _ =>
        cases hrequest : c.request with
        | none =>
          obtain ⟨e, hd⟩ := dispatch_refused (P := P) (k := k) (w := w) hin hrequest hauth rfl
          rw [hd]
          rfl
        | some r =>
          rw [dispatch_served hin hrequest hauth rfl]
          exact congrArg (·, (r.serve P k w).2) (received_served hF hrequest)

theorem step_call (s : Session) : step F P s (.call names k requestor c) =
    some ⟨(call F P names k requestor c s.world).2, s.results ++ [(call F P names k requestor c s.world).1]⟩ := rfl

/-- The clients of the SDK talk to the handlers. Whatever they call, in whatever order and with whatever the driver does
in between: the calls that succeed return what the handlers have answered to the requests that were accepted, and the
driver is in the state in which these requests, and nothing else, have left it. -/
theorem calls_are_handled {turns : List Turn} {s : Session} (hF : F.Agree)
    (hrun : StepRun.run (step F P) ⟨w, []⟩ turns = some s) :
    (s.world, s.results.map Except.toOption) = turns.foldl (serveTurn F P) (w, []) := by
  refine StepRun.run_simulates (R := fun s t => (s.world, s.results.map Except.toOption) = t) (serveTurn F P) ?_ rfl hrun
  rintro s _ turn s' rfl hs
  cases turn with
  | call names k requestor c =>
    rw [step_call] at hs
    obtain rfl := Option.some.inj hs
    have hcall : _ = handled F P names k requestor c s.world := call_handled hF
    simp only [serveTurn, ← hcall, List.map_append, List.map_cons, List.map_nil]
  | driver e =>
    obtain ⟨w', hw', rfl⟩ := Option.map_eq_some_iff.mp hs
    simp only [serveTurn, hw', Option.getD_some]

end Transparent

/-! ## A status, a sweep that is started, and a pause -/

section Sample

/-- What the driver says about the sample volume. -/
def ntStatus : VolumeStatus := ⟨nt, 0, 5, 512, 512, true, false⟩

/-- A map of seven fields, in MessagePack. -/
def statusBytes : Bytes :=
  [0x87, 0xab] ++ "volume_path".toUTF8.data.toList ++ [0xb7] ++ nt.toUTF8.data.toList ++
    [0xa5] ++ "state".toUTF8.data.toList ++ [0x00, 0xb0] ++ "encrypted_sector".toUTF8.data.toList ++
    [0x05, 0xad] ++ "total_sectors".toUTF8.data.toList ++ [0xcd, 0x02, 0x00, 0xab] ++ "sector_size".toUTF8.data.toList ++
    [0xcd, 0x02, 0x00, 0xab] ++ "is_attached".toUTF8.data.toList ++ [0xc3, 0xb0] ++
    "filter_below_fsd".toUTF8.data.toList ++ [0xc2]

/-- MessagePack at the three records that go over the wire. -/
def sessionFormats : Formats where
  marshal := fun v =>
    match v with
    | .map [(name, .str path)] => if name = "volume_path" ∧ path = nt then .ok ntRequest else .error ""
    | _ => .error ""
  unmarshal := fun b =>
    if b = [0x80] then .ok (.map [])
    else if b = statusBytes then .ok (.map (present (statusFields ntStatus)))
    else .error ""
  fromSlice := fun b => if b = ntRequest then .ok (.map [("volume_path", .str nt)]) else .error ""
  toVec := fun v =>
    match v with
    | .map [] => .ok [0x80]
    | .map [(n₁, .str path), (n₂, .int state), (n₃, .int sector), (n₄, .int total), (n₅, .int size), (n₆, .bool attached),
        (n₇, .bool below)] =>
      if [n₁, n₂, n₃, n₄, n₅, n₆, n₇] = (statusFields ntStatus).map Prod.fst ∧ path = nt ∧ state = 0 ∧ sector = 5 ∧
          total = 512 ∧ size = 512 ∧ attached = true ∧ below = false then
        .ok statusBytes
      else .error ""
    | _ => .error ""
  serdeError := fun _ => ""
  goError := fun _ => ""

theorem sessionFormats_agree : sessionFormats.Agree := by
  refine ⟨?_, ?_⟩
  · intro v b h
    simp only [sessionFormats] at h ⊢
    split at h
    · split at h
      · rename_i hrecord
        obtain ⟨rfl, rfl⟩ := hrecord
        obtain rfl := Except.ok.inj h
        rw [if_pos rfl]
      · cases h
    · cases h
  · intro v b h
    simp only [sessionFormats] at h ⊢
    split at h
    · obtain rfl := Except.ok.inj h
      rw [if_pos rfl]
    · split at h
      · rename_i hrecord
        obtain ⟨hnames, rfl, rfl, rfl, rfl, rfl, rfl, rfl⟩ := hrecord
        simp only [statusFields, List.map_cons, List.map_nil, List.cons.injEq, and_true] at hnames
        obtain ⟨rfl, rfl, rfl, rfl, rfl, rfl, rfl⟩ := hnames
        obtain rfl := Except.ok.inj h
        have hne : statusBytes ≠ [0x80] := by
          intro he
          have hhead : some (0x87 : UInt8) = some 0x80 := congrArg List.head? he
          cases hhead
        rw [if_neg hne, if_pos rfl]
        rfl
      · cases h
    · cases h

variable {P : Primitives} {w : World}

theorem toNTPath_nt : toNTPath .ok nt = .ok nt := ite_self _

theorem fits_done : fits sessionFormats .done = true := by
  decide

theorem fits_status : fits sessionFormats (.status ntStatus) = true := by
  have henc : sessionFormats.encodeResp (Response.fields (.status ntStatus)) = .ok statusBytes := rfl
  have hlen : statusBytes.length ≤ outLength := by decide +kernel
  rw [fits, henc]
  exact decide_eq_true hlen

theorem accepted_sessionFormats {c : Call} {r : Request} (hresolve : c.resolve .ok = .ok c)
    (hfields : c.fields = volumeFields nt) (hrequest : c.request = some r) :
    accepted sessionFormats .ok administrator c = some r := by
  have hauth : authorize ⟨c.ioctl.code, administrator.mode, administrator.token⟩ = .ok () := by
    rw [authorize]
    exact ite_self _
  have hmarshal : sessionFormats.marshal (.map (present c.fields)) = .ok ntRequest := by
    rw [hfields]
    change (if "volume_path" = "volume_path" ∧ nt = nt then Except.ok ntRequest else .error "") = .ok ntRequest
    exact if_pos ⟨rfl, rfl⟩
  rw [accepted, hresolve]
  simp only [hmarshal, hauth, hrequest]

theorem handled_status :
    handled sessionFormats P .ok sampleAnswers administrator (.getStatus nt) ntWorld =
      (some (.status ntStatus), ntWorld) := by
  have hresolve : (Call.getStatus nt).resolve .ok = .ok (.getStatus nt) := congrArg (Except.map Call.getStatus) toNTPath_nt
  have hres : resolveVolume sampleAnswers.find nt ntWorld.state =
      some (0, { StartRequest.sampleVolume with volumePath := nt }) := by
    rw [resolveVolume, DriverState.get_eq_some_iff.mpr ⟨shows_ntWorld.entry, rfl⟩]
    rfl
  have hserve : Request.serve P sampleAnswers ntWorld (.getStatus ⟨nt⟩) = (.ok (.status ntStatus), ntWorld) := by
    simp only [Request.serve, statusOf, hres]
    rfl
  rw [handled, accepted_sessionFormats hresolve rfl rfl]
  simp only [hserve, Except.toOption, Option.filter_some, fits_status, if_true]

theorem handled_start (h : Shows w .idle) :
    handled sessionFormats P .ok sampleAnswers administrator (.startEncrypt nt) w =
      (some .done, (handleStartEncrypt P noAnswers (.ok ⟨nt⟩) w).2) := by
  obtain ⟨x, hfind, -⟩ := h.resolves
  have hres : resolveVolume sampleAnswers.find nt w.state = some (0, x) := hfind
  have hresolve : (Call.startEncrypt nt).resolve .ok = .ok (.startEncrypt nt) :=
    congrArg (Except.map Call.startEncrypt) toNTPath_nt
  have hserve : (Request.serve P sampleAnswers w (.startEncrypt ⟨nt⟩)).1 = .ok .done := by
    simp only [Request.serve, handleStartEncrypt, handleStart, hres]
    rfl
  rw [handled, accepted_sessionFormats hresolve rfl rfl]
  simp only [hserve, Except.toOption, Option.filter_some, fits_done, if_true]
  rfl

theorem handled_pause (h : Shows w .encrypting) :
    handled sessionFormats P .ok sampleAnswers administrator (.pause nt) w = (some .done, pauseVolume w 0) := by
  obtain ⟨x, hfind, -⟩ := h.resolves
  have hres : resolveVolume sampleAnswers.find nt w.state = some (0, x) := hfind
  have hresolve : (Call.pause nt).resolve .ok = .ok (.pause nt) := congrArg (Except.map Call.pause) toNTPath_nt
  have hserve : Request.serve P sampleAnswers w (.pause ⟨nt⟩) = (.ok .done, pauseVolume w 0) := by
    simp only [Request.serve, handlePause, hres]
    rfl
  rw [handled, accepted_sessionFormats hresolve rfl rfl]
  simp only [hserve, Except.toOption, Option.filter_some, fits_done, if_true]

def session : List Turn :=
  [.call .ok sampleAnswers administrator (.getStatus nt), .call .ok sampleAnswers administrator (.startEncrypt nt),
    .call .ok sampleAnswers administrator (.pause nt)]

/-- An administrator asks for the status of the volume, starts its sweep and pauses it. -/
theorem calls_are_handled_session :
    ∃ s, StepRun.run (step sessionFormats JvckMetadata.standard) ⟨ntWorld, []⟩ session = some s ∧
      s.results.map Except.toOption = [some (.status ntStatus), some .done, some .done] ∧ Shows s.world .paused := by
  have hstep (s : Session) (c : Call) : ∃ s', step sessionFormats JvckMetadata.standard s
      (.call .ok sampleAnswers administrator c) = some s' := ⟨_, step_call s⟩
  obtain ⟨s₁, h₁⟩ := hstep ⟨ntWorld, []⟩ (.getStatus nt)
  obtain ⟨s₂, h₂⟩ := hstep s₁ (.startEncrypt nt)
  obtain ⟨s₃, h₃⟩ := hstep s₂ (.pause nt)
  have hrun : StepRun.run (step sessionFormats JvckMetadata.standard) ⟨ntWorld, []⟩ session = some s₃ :=
    StepRun.run_cons_eq_some.mpr ⟨s₁, h₁, StepRun.run_cons_eq_some.mpr ⟨s₂, h₂,
      StepRun.run_cons_eq_some.mpr ⟨s₃, h₃, rfl⟩⟩⟩
  have hstatus := handled_status (P := JvckMetadata.standard)
  have hstart := handled_start (P := JvckMetadata.standard) shows_ntWorld
  have hstarted := shows_ntWorld.started (P := JvckMetadata.standard)
  have hpause := handled_pause (P := JvckMetadata.standard) hstarted
  have hend := calls_are_handled sessionFormats_agree hrun
  simp only [session, List.foldl_cons, List.foldl_nil, serveTurn, hstatus, hstart, hpause, List.nil_append,
    List.cons_append] at hend
  obtain ⟨hworld, hresults⟩ := Prod.mk.inj hend
  refine ⟨s₃, hrun, hresults, ?_⟩
  rw [hworld]
  exact hstarted.paused

end Sample

end RemoteCalls
