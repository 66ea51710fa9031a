import VolumeCrypt.DriverState
import VolumeCrypt.PrepareLayout

/-!
# The handlers that attach and detach volumes

`IOCTL_JVCK_PREPARE`, `IOCTL_JVCK_ATTACH`, `IOCTL_VCK_DETACH` and
`IOCTL_VCK_DETACH_ALL_VOLUMES` of `lib/windrv/src/ioctl/dispatch.rs`, the handover mount of
`lib/windrv/src/filter/handover_mount.rs` and the `AddDevice` routine of the sample driver.
What the kernel answers to a handler is an argument of it. The handlers change the
registry, the extensions and the set of filters in stages, and each error exit undoes
what it remembers to undo.
-/
namespace Dispatch

open ByteString VckTypes JvckLayout SectorIo SweepEngine VolumeSweep PrepareLayout DriverState

structure JvckVolumePrepareReq where
  volumePath : String
  ntDevicePath : String
  useHeader : UInt32
  useFooter : UInt32
  metadataSize : UInt32
  vmk : Bytes
  metadataBlock : Bytes
  isOsVolume : Bool

def JvckVolumePrepareReq.options (req : JvckVolumePrepareReq) : JvckMetadataOptions :=
  ⟨req.useHeader, req.useFooter, req.metadataSize⟩

def JvckVolumePrepareReq.attachSource (req : JvckVolumePrepareReq) : AttachSource :=
  if req.isOsVolume then .handover else .ioctl

structure JvckVolumePrepareResp where
  offsetSector : UInt64
  dataSectors : UInt64
  sectorSize : UInt32
  rawPartitionPath : String
  rawDiskPath : String
  partitionStartLba : UInt64
  fullyAttached : Bool

structure JvckVolumeAttachReq where
  volumePath : String
  ntDevicePath : String
  rawPartitionPath : String
  vmk : Bytes

structure JvckVolumeAttachResp where
  offsetSector : UInt64
  totalSectors : UInt64
  sectorSize : UInt32

structure VolumeRequest where
  volumePath : String

/-! ## Finding the filter -/

/-- `path.strip_prefix(start)`. -/
def stripStart (start path : String) : Option String :=
  if start.toList.isPrefixOf path.toList then some (String.ofList (path.toList.drop start.length)) else none

def win32VolumePathToNt (path : String) : String :=
  let trimmed := String.ofList (path.toList.reverse.dropWhile (· = '\\')).reverse
  match stripStart "\\\\.\\" trimmed, stripStart "\\\\?\\" trimmed with
  | some rest, _ => "\\??\\" ++ rest
  | none, some rest => "\\??\\" ++ rest
  | none, none =>
    if (stripStart "\\??\\" trimmed).isSome || (stripStart "\\Device\\" trimmed).isSome ||
        (stripStart "\\DosDevices\\" trimmed).isSome then trimmed
    else "\\??\\" ++ trimmed

/-- What the object manager says about a volume path. -/
structure FindAnswers where
  volDo : Option DeviceId
  baseDev : Option DeviceId
  devName : String
  topDev : Option DeviceId
  /-- The first of our filters in the stack. -/
  inStack : Option FilterId

section Handlers

variable {σ : Type}

/-- The stack walk meets existing devices only. -/
def findOurFilterInStack (k : FindAnswers) (s : State σ) : Option (FilterId × DeviceId) :=
  k.inStack.bind fun f => (s.filters f).map fun ext => (f, ext.lowerDevice)

def findFilterForVolume (k : FindAnswers) (ntPath : String) (s : State σ) : Option (FilterId × DeviceId) :=
  match k.volDo with
  | none => none
  | some volDo =>
    (if k.devName = "" then none else s.findPdoFilterByName k.devName)
      <|> s.findPdoFilterByName ntPath
      <|> k.baseDev.bind s.findPdoFilter
      <|> s.findPdoFilter volDo
      <|> k.topDev.bind s.findPdoFilter
      <|> findOurFilterInStack k s

/-! ## Volumes -/

/-- The data region and its boundary, `none` for `Passthrough`. -/
def geometry : IoConfig → Option (UInt64 × EncryptedOffset)
  | .passthrough => none
  | .encrypted _ offsetSector encryptedOffset => some (offsetSector, encryptedOffset)
  | .custom offsetSector encryptedOffset => some (offsetSector, encryptedOffset)

/-- The volume that hides the metadata until the key is known. -/
def provisional (volumePath : String) (sectorSize : UInt32) (layout : ReplicaLayout) (attachSource : AttachSource)
    (f : FilterId) : Volume σ where
  sectorSize := sectorSize
  ioConfig := .encrypted none layout.offsetSector ⟨0, layout.dataSectors⟩
  encryption := .new layout.offsetSector ⟨0, layout.dataSectors⟩
  offsetStore := .dummy layout.dataSectors
  encryptedBoundary := 0
  cipherCalls := 0
  volumePath := volumePath
  attachSource := attachSource
  filterDevice := some f

/-- The outcome of a full attach. -/
structure Opened (σ : Type) where
  sectorSize : UInt32
  ioConfig : IoConfig
  offsetSector : UInt64
  encryptedOffset : EncryptedOffset
  store : σ

def Opened.complete (o : Opened σ) (volumePath : String) (attachSource : AttachSource) (f : Option FilterId) :
    Volume σ where
  sectorSize := o.sectorSize
  ioConfig := o.ioConfig
  encryption := .new o.offsetSector o.encryptedOffset
  offsetStore := .provided o.store
  encryptedBoundary := o.encryptedOffset.sector
  cipherCalls := 0
  volumePath := volumePath
  attachSource := attachSource
  filterDevice := f

/-! ## PREPARE -/

/-- What the kernel and the provider answer to PREPARE. -/
structure PrepareAnswers (σ : Type) where
  find : FindAnswers
  /-- Sector size and count from `open_query` on the AddDevice path. -/
  query : VckResult (UInt32 × UInt64)
  /-- The same from the volume handle of the fallback path. -/
  handleGeometry : UInt32 × UInt64
  /-- Creating and attaching the filter of the fallback path; the device below it. -/
  attach : VckResult DeviceId
  openMetadata : VckResult Unit
  writeFault : UInt64 → Option VckError
  deviceNumber : UInt32 × UInt32
  startBytes : UInt64
  probe : VckResult (UInt32 × UInt64)
  onAttach : VckResult (IoConfig × σ)
  openSweep : VckResult Unit

/-- The replicas are written one by one up to the first failure. -/
def writeReplicas (writeFault : UInt64 → Option VckError) (lbas : List UInt64) : VckResult Unit :=
  match lbas.findSome? writeFault with
  | some e => .error e
  | none => .ok ()

/-- How PREPARE goes on once the provisional volume is bound. -/
inductive Settlement (σ : Type) where
  | keep
  | fail (e : VckError) (undo : Bool)
  | complete (o : Opened σ)

/-- `on_attach_volume` and what follows it; only a `Passthrough` answer leaves by a bare `?`. -/
def fullAttach (onAttach : VckResult (IoConfig × σ)) (sectorSize : UInt32) (openSweep : VckResult Unit) :
    Settlement σ :=
  match onAttach with
  | .error e => .fail e true
  | .ok (ioConfig, store) =>
    match geometry ioConfig with
    | none => .fail (.validationFailed "on_attach returned passthrough for a VMK-provided volume") false
    | some (offsetSector, encryptedOffset) =>
      match openSweep with
      | .error e => .fail e true
      | .ok () => .complete ⟨sectorSize, ioConfig, offsetSector, encryptedOffset, store⟩

/-- Carries the settlement out. -/
def settle (req : JvckVolumePrepareReq) (f : FilterId) (keep : JvckVolumePrepareResp) (st : Settlement σ)
    (s : State σ) : VckResult JvckVolumePrepareResp × State σ :=
  match st with
  | .keep => (.ok keep, s)
  | .fail e undo => (.error e, if undo then (s.erase req.volumePath).detachFilter f else s)
  | .complete o =>
    let (id, s) := (s.erase req.volumePath).insert (o.complete req.volumePath req.attachSource (some f))
    (.ok { keep with
        offsetSector := o.offsetSector
        dataSectors := o.encryptedOffset.totalSectors
        sectorSize := o.sectorSize
        fullyAttached := true },
      s.filterRebindVolume f id)

def bindProvisional (v : Volume σ) (f : FilterId) (s : State σ) : State σ :=
  let (id, s) := s.insert v
  s.filterBindVolume f id

def diskPath (n : UInt32) : String := "\\Device\\Harddisk" ++ toString n ++ "\\DR0"

def partitionPath (n p : UInt32) : String := "\\Device\\Harddisk" ++ toString n ++ "\\Partition" ++ toString p

/-- The metadata stage of the AddDevice path, which comes before the volume is bound. -/
def writeBeforeBind (k : PrepareAnswers σ) (req : JvckVolumePrepareReq) (layout : ReplicaLayout) : VckResult Unit :=
  if req.metadataBlock = [] then .ok ()
  else if req.metadataBlock.length < JvckMetadata.metadataBlockSize then
    .error (.invalidData "metadata_block too short")
  else writeReplicas k.writeFault layout.replicaLbas

def handleJvckPrepareAddDevicePath (k : PrepareAnswers σ) (req : JvckVolumePrepareReq) (f : FilterId) (s : State σ) :
    VckResult JvckVolumePrepareResp × State σ :=
  match k.query with
  | .error e => (.error e, s)
  | .ok (sectorSize, totalSectors) =>
    match addDeviceLayout sectorSize totalSectors req.options with
    | .error e => (.error e, s)
    | .ok layout =>
      match writeBeforeBind k req layout with
      | .error e => (.error e, s)
      | .ok () =>
        let s := bindProvisional (provisional req.volumePath sectorSize layout req.attachSource f) f s
        let keep :=
          { offsetSector := layout.offsetSector
            dataSectors := layout.dataSectors
            sectorSize := sectorSize
            rawPartitionPath := partitionPath k.deviceNumber.1 k.deviceNumber.2
            rawDiskPath := diskPath k.deviceNumber.1
            partitionStartLba := k.startBytes / sectorSize.toUInt64
            fullyAttached := false }
        settle req f keep (if req.vmk = [] then .keep else fullAttach k.onAttach sectorSize (.ok ())) s

/-- The metadata stage and the full attach of the fallback path, both after the volume is bound. -/
def fallbackSettlement (k : PrepareAnswers σ) (req : JvckVolumePrepareReq) (layout : ReplicaLayout) : Settlement σ :=
  let written : VckResult Unit :=
    if req.metadataBlock = [] then .ok ()
    else if req.metadataBlock.length < JvckMetadata.metadataBlockSize then
      .error (.invalidData "metadata_block must be at least 512 bytes")
    else k.openMetadata.bind fun _ => writeReplicas k.writeFault layout.replicaLbas
  match written with
  | .error e => .fail e true
  | .ok () =>
    if req.vmk = [] then .keep
    else match k.probe with
      | .error e => .fail e true
      | .ok (sectorSize, _) => fullAttach k.onAttach sectorSize k.openSweep

def handleJvckPrepareFallback (k : PrepareAnswers σ) (req : JvckVolumePrepareReq) (s : State σ) :
    VckResult JvckVolumePrepareResp × State σ :=
  let (sectorSize, totalSectors) := k.handleGeometry
  match fallbackLayout sectorSize totalSectors req.options with
  | .error e => (.error e, s)
  | .ok layout =>
    match k.attach with
    | .error e => (.error e, s)
    | .ok lower =>
      let (f, s) := s.createFilter lower
      let s := bindProvisional (provisional req.volumePath sectorSize layout req.attachSource f) f s
      let (disk, part) := k.deviceNumber
      let known := 0 < disk ∨ 0 < part
      let keep :=
        { offsetSector := layout.offsetSector
          dataSectors := layout.dataSectors
          sectorSize := sectorSize
          rawPartitionPath := if known then partitionPath disk part else ""
          rawDiskPath := if known then diskPath disk else ""
          partitionStartLba := k.startBytes / sectorSize.toUInt64
          fullyAttached := false }
      settle req f keep (fallbackSettlement k req layout) s

def JvckVolumePrepareReq.ntPath (req : JvckVolumePrepareReq) : String :=
  if req.ntDevicePath ≠ "" then req.ntDevicePath else win32VolumePathToNt req.volumePath

def handleJvckPrepare (k : PrepareAnswers σ) (input : VckResult JvckVolumePrepareReq) (s : State σ) :
    VckResult JvckVolumePrepareResp × State σ :=
  match input with
  | .error e => (.error e, s)
  | .ok req =>
    if (s.get req.volumePath).isSome then (.error (.unsupported "volume already prepared/attached"), s)
    else if !s.driverObject then (.error (.io "driver object not registered"), s)
    else
      match findFilterForVolume k.find req.ntPath s with
      | some (f, _) => handleJvckPrepareAddDevicePath k req f s
      | none => handleJvckPrepareFallback k req s

/-! ## ATTACH -/

structure AttachAnswers (σ : Type) where
  probe : VckResult (UInt32 × UInt64)
  onAttach : VckResult (IoConfig × σ)
  openSweep : VckResult Unit

/-- Everything that ATTACH asks for before it changes anything. -/
def openAttach (k : AttachAnswers σ) : VckResult (Opened σ) := do
  let (sectorSize, _) ← k.probe
  let (ioConfig, store) ← k.onAttach
  match geometry ioConfig with
  | none => .error (.validationFailed "on_attach returned passthrough for a VMK-provided volume")
  | some (offsetSector, encryptedOffset) =>
    let _ ← k.openSweep
    .ok ⟨sectorSize, ioConfig, offsetSector, encryptedOffset, store⟩

/-- `filter_rebind_volume` on the filter that was read from the provisional volume. -/
def rebindOn (f : Option FilterId) (id : VolId) (s : State σ) : State σ :=
  match f with
  | some f => s.filterRebindVolume f id
  | none => s

def handleJvckAttach (k : AttachAnswers σ) (input : VckResult JvckVolumeAttachReq) (s : State σ) :
    VckResult JvckVolumeAttachResp × State σ :=
  match input with
  | .error e => (.error e, s)
  | .ok req =>
    match s.get req.volumePath with
    | none => (.error (.notFound "volume not prepared; call IOCTL_JVCK_PREPARE first"), s)
    | some (_, old) =>
      if old.hasCipher then (.error (.unsupported "volume already fully attached"), s)
      else
        match openAttach k with
        | .error e => (.error e, s)
        | .ok o =>
          let (id, s) := (s.erase req.volumePath).insert (o.complete req.volumePath .ioctl old.filterDevice)
          (.ok ⟨o.offsetSector, o.encryptedOffset.totalSectors, o.sectorSize⟩, rebindOn old.filterDevice id s)

/-! ## DETACH -/

/-- Whether the volume can be opened and locked; the outcome of the dismount is only logged. -/
structure DetachAnswers where
  handle : Bool
  lock : Bool

def teardown (keepFilter : Bool) (f : Option FilterId) (s : State σ) : State σ :=
  match f with
  | none => s
  | some f => if keepFilter then s.unbindFilter f else s.detachFilter f

def detachVolumeWithDismount (k : DetachAnswers) (volumePath : String) (ignoreOpenFiles keepFilter : Bool)
    (s : State σ) : VckResult Unit × State σ :=
  match s.remove volumePath with
  | (none, s) => (.error (.notFound "volume is not attached"), s)
  | (some (id, _), s) =>
    let (f, s) := s.swapFilterDevice id
    if k.handle && !k.lock && !ignoreOpenFiles then (.error (.io "FSCTL_LOCK_VOLUME failed (files open)"), s)
    else (.ok (), teardown keepFilter f s)

/-- The check that keeps an encrypted OS volume attached. -/
def detachRefused (s : State σ) (volumePath : String) : Bool :=
  (s.get volumePath).any fun x => x.2.isOsVolume && x.2.hasEncryptedData

def handleDetach (k : DetachAnswers) (input : VckResult VolumeRequest) (s : State σ) : VckResult Unit × State σ :=
  match input with
  | .error e => (.error e, s)
  | .ok req =>
    if detachRefused s req.volumePath then
      (.error (.permissionDenied "OS volume is encrypted; detach is not allowed"), s)
    else detachVolumeWithDismount k req.volumePath false true s

/-- The paths that DETACH_ALL collects. -/
def dataPaths (s : State σ) : List String := (s.all.filter fun x => !x.2.isOsVolume).map (·.2.volumePath)

/-- DETACH_ALL deletes the filters and goes on after a failure. -/
def handleDetachAllVolumes (k : String → DetachAnswers) (s : State σ) : VckResult Unit × State σ :=
  (.ok (), (dataPaths s).foldl (fun s path => (detachVolumeWithDismount (k path) path true false s).2) s)

/-! ## The handover mount and AddDevice -/

structure HandoverAnswers (σ : Type) where
  geometry : VckResult (UInt32 × UInt64)
  partitionId : VckResult (Fixed 16)
  onAttach : VckResult (IoConfig × σ)

/-- The volume that the handover asks to mount below `f`, when everything it asks for is there. -/
def openHandover (k : HandoverAnswers σ) (s : State σ) : Option (Opened σ) := do
  let guid ← s.handover
  let (sectorSize, _) ← k.geometry.toOption
  let id ← k.partitionId.toOption
  if id ≠ guid then none
  else
    let (ioConfig, store) ← k.onAttach.toOption
    let (offsetSector, encryptedOffset) ← Dispatch.geometry ioConfig
    some ⟨sectorSize, ioConfig, offsetSector, encryptedOffset, store⟩

/-- The registry key of the OS volume. -/
def handoverPath (s : State σ) (f : FilterId) (lower : DeviceId) : String :=
  (s.pdoNameForFilter f).getD
    ("\\Device\\HandoverVolume[0x" ++ String.ofList (Nat.toDigits 16 lower) ++ "]")

/-- `engine.resume(store)`, with the device that the store reads. -/
def resumeVolume (S : EncryptedOffsetStore σ) (d : Device) (v : AttachedVolume (OffsetStore σ)) :
    AttachedVolume (OffsetStore σ) :=
  { v with encryption := EncryptionEngine.resume (offsetStore S) v.encryption v.offsetStore d }

def tryMountHandoverVolume (S : EncryptedOffsetStore σ) (d : Device) (k : HandoverAnswers σ) (f : FilterId)
    (s : State σ) : State σ :=
  match s.filters f with
  | none => s
  | some ext =>
    if ext.volume.isSome then s
    else
      match openHandover k s with
      | none => s
      | some o =>
        let (id, s) := s.insert (o.complete (handoverPath s f ext.lowerDevice) .handover (some f))
        (s.modifyAttached id (resumeVolume S d)).filterBindVolume f id

structure AddDeviceAnswers where
  pdo : DeviceId
  pdoName : String
  /-- The device below the new filter. -/
  attach : VckResult DeviceId

def addDevice (k : AddDeviceAnswers) (s : State σ) : State σ :=
  match k.attach with
  | .error _ => s
  | .ok lower =>
    let (f, s) := s.createFilter lower
    s.addPdoFilter ⟨k.pdo, f, lower, k.pdoName⟩

end Handlers

/-! ## Failed requests -/

/-- The requests that attach or detach one volume, with what the kernel answers to them. -/
inductive Request (σ : Type) where
  | prepare (k : PrepareAnswers σ) (input : VckResult JvckVolumePrepareReq)
  | attach (k : AttachAnswers σ) (input : VckResult JvckVolumeAttachReq)
  | detach (k : DetachAnswers) (input : VckResult VolumeRequest)

section Failures

variable {σ : Type}

/-- The status of a request and the state behind it. -/
def Request.handle (r : Request σ) (s : State σ) : VckResult Unit × State σ :=
  match r with
  | .prepare k input => (handleJvckPrepare k input s).map (Except.map fun _ => ()) id
  | .attach k input => (handleJvckAttach k input s).map (Except.map fun _ => ()) id
  | .detach k input => handleDetach k input s

/-- The registry, the filter of each volume, the filters and their extensions are as before, and nothing has been
written to the extension of a filter that no longer exists. -/
structure Intact (s s' : State σ) : Prop where
  entries : s'.entries = s.entries
  filterDevice : ∀ {id v}, s.volumes id = some v → ∃ v', s'.volumes id = some v' ∧ v'.filterDevice = v.filterDevice
  filters : s'.filters = s.filters
  faults : s'.faults = s.faults

theorem Intact.refl (s : State σ) : Intact s s := ⟨rfl, fun h => ⟨_, h, rfl⟩, rfl, rfl⟩

/-- If the request fails, it has changed nothing. -/
def FailsIntact {α : Type} (r : VckResult α × State σ) (s : State σ) : Prop := (∃ e, r.1 = .error e) → Intact s r.2

/-- The provider takes the volume for one that is not ours. -/
def AnswersPassthrough (onAttach : VckResult (IoConfig × σ)) : Prop := ∃ st, onAttach = .ok (.passthrough, st)

/-- The block to write is absent, or long enough and written to every replica. -/
def BlockWritten (k : PrepareAnswers σ) (req : JvckVolumePrepareReq) (sectorSize : UInt32) (totalSectors : UInt64) :
    Prop :=
  req.metadataBlock = [] ∨ JvckMetadata.metadataBlockSize ≤ req.metadataBlock.length ∧
    ∀ lba ∈ (replicaLayout sectorSize totalSectors req.options).replicaLbas, k.writeFault lba = none

/-- On the AddDevice path `on_attach` is asked. -/
def AddDeviceReaches (k : PrepareAnswers σ) (req : JvckVolumePrepareReq) : Prop :=
  req.vmk ≠ [] ∧ ∃ g, k.query = .ok g ∧ BlockWritten k req g.1 g.2

/-- On the fallback path `on_attach` is asked. -/
def FallbackReaches (k : PrepareAnswers σ) (req : JvckVolumePrepareReq) : Prop :=
  req.vmk ≠ [] ∧ k.handleGeometry.1 ≠ 0 ∧ k.handleGeometry.2 ≠ 0 ∧ (∃ lower, k.attach = .ok lower) ∧
    BlockWritten k req k.handleGeometry.1 k.handleGeometry.2 ∧ (req.metadataBlock = [] ∨ k.openMetadata = .ok ()) ∧
    ∃ g, k.probe = .ok g

/-- The exits that forget to undo: a volume that cannot be locked for DETACH, a `Passthrough` answer to
PREPARE, and an error of `on_attach` on the AddDevice path, where the filter was there before, or is one that has
been deleted and is written to and deleted once more. -/
def Request.Leaks (r : Request σ) (s : State σ) : Prop :=
  match r with
  | .prepare k input => ∃ req, input = .ok req ∧ s.entries[req.volumePath]? = none ∧ s.driverObject = true ∧
      match findFilterForVolume k.find req.ntPath s with
      | some _ => AddDeviceReaches k req ∧
          (AnswersPassthrough k.onAttach ∨ ∃ e, k.onAttach = .error e)
      | none => FallbackReaches k req ∧ AnswersPassthrough k.onAttach
  | .attach _ _ => False
  | .detach k input => ∃ req, input = .ok req ∧ s.entries[req.volumePath]? ≠ none ∧
      detachRefused s req.volumePath = false ∧ k.handle = true ∧ k.lock = false

variable {s : State σ} {f : FilterId} {v : Volume σ}

variable {α β : Type}

theorem FailsIntact.of_ok {x : α} {s' : State σ} : FailsIntact (.ok x, s') s := by
  rintro ⟨e, he⟩
  cases he

theorem FailsIntact.of_refl (r : VckResult α) : FailsIntact (r, s) s := fun _ => .refl s

theorem failsIntact_error {e : VckError} {s' : State σ} :
    FailsIntact ((.error e : VckResult α), s') s ↔ Intact s s' :=
  ⟨fun h => h ⟨e, rfl⟩, fun h _ => h⟩

theorem failsIntact_map {g : α → β} {r : VckResult α × State σ} :
    FailsIntact (r.map (Except.map g) id) s ↔ FailsIntact r s := by
  obtain ⟨r, s'⟩ := r
  cases r with
  | error e => exact failsIntact_error.trans failsIntact_error.symm
  | ok x => exact ⟨fun _ => .of_ok, fun _ => .of_ok⟩

/-- Volumes of the state before are not touched by an insertion. -/
theorem insert_volumes_of_some {id : VolId} {w v : Volume σ} (h : s.volumes id = some w) :
    (s.insert v).2.volumes id = some w := by
  have hlt : id < s.nextVolume := by
    by_contra hge
    rw [s.allocated id (not_lt.mp hge)] at h
    cases h
  rw [insert_volumes_of_lt hlt, h]

/-- The provisional volume is in the registry once it is bound. -/
theorem bindProvisional_entry : (bindProvisional v f s).entries[v.volumePath]? = some s.nextVolume := by
  simp [bindProvisional, insert_entry]

theorem bindProvisional_filters (v : Volume σ) (f : FilterId) (s : State σ) :
    ∃ g : DeviceExtension → DeviceExtension,
      (bindProvisional v f s).filters = Function.update s.filters f ((s.filters f).map g) := by
  obtain ⟨g, -, hg⟩ := filterBindVolume_filters (s.insert v).2 f s.nextVolume
  exact ⟨g, hg⟩

/-- Binding and deleting a filter is free of faults exactly when the filter exists. -/
theorem abandon_faults :
    (((bindProvisional v f s).erase v.volumePath).detachFilter f).faults = s.faults ↔ s.filters f ≠ none := by
  obtain ⟨g, hg⟩ := bindProvisional_filters v f s
  have hat : (bindProvisional v f s).filters f = (s.filters f).map g := by rw [hg, Function.update_self]
  have hbind : (bindProvisional v f s).faults = (s.access f).faults := filterBindVolume_faults
  rw [detachFilter_faults, access_faults, erase_filters, erase_faults, hat, hbind, access_faults]
  cases s.filters f <;> simp

/-- Removing the provisional volume and deleting its filter undoes all but the filter. -/
theorem abandon_spec {s₀ : State σ} (hentries : s.entries = s₀.entries) (hvolumes : s.volumes = s₀.volumes)
    (hfaults : s.faults = s₀.faults) (h : s₀.entries[v.volumePath]? = none) :
    Intact s₀ (((bindProvisional v f s).erase v.volumePath).detachFilter f) ↔
      s.filters f ≠ none ∧ Function.update s.filters f none = s₀.filters := by
  have hfilters : (((bindProvisional v f s).erase v.volumePath).detachFilter f).filters =
      Function.update s.filters f none := by
    obtain ⟨g, hg⟩ := bindProvisional_filters v f s
    rw [detachFilter_filters, erase_filters, hg, Function.update_idem]
  constructor
  · intro hi
    exact ⟨abandon_faults.mp (hi.faults.trans hfaults.symm), by rw [← hfilters, hi.filters]⟩
  · rintro ⟨halive, hf⟩
    refine ⟨?_, ?_, hfilters.trans hf, (abandon_faults.mpr halive).trans hfaults⟩
    · exact (erase_insert_entries (by rw [hentries, h])).trans hentries
    · intro id w hw
      exact ⟨w, insert_volumes_of_some (by rw [hvolumes, hw]), rfl⟩

theorem writeReplicas_ok_iff (writeFault : UInt64 → Option VckError) (lbas : List UInt64) :
    writeReplicas writeFault lbas = .ok () ↔ ∀ lba ∈ lbas, writeFault lba = none := by
  rw [writeReplicas]
  cases h : lbas.findSome? writeFault with
  | none => simpa using List.findSome?_eq_none_iff.mp h
  | some e =>
    obtain ⟨lba, hmem, hlba⟩ := List.exists_of_findSome?_eq_some h
    simp only [reduceCtorEq, false_iff, not_forall]
    exact ⟨lba, hmem, by rw [hlba]; simp⟩

theorem writeBeforeBind_ok_iff (k : PrepareAnswers σ) (req : JvckVolumePrepareReq) (sectorSize : UInt32)
    (totalSectors : UInt64) :
    writeBeforeBind k req (replicaLayout sectorSize totalSectors req.options) = .ok () ↔
      BlockWritten k req sectorSize totalSectors := by
  unfold writeBeforeBind BlockWritten
  by_cases hempty : req.metadataBlock = []
  · simp [hempty]
  · by_cases hshort : req.metadataBlock.length < JvckMetadata.metadataBlockSize
    · rw [if_neg hempty, if_pos hshort]
      simp only [reduceCtorEq, hempty, false_or, false_iff, not_and]
      omega
    · rw [if_neg hempty, if_neg hshort, writeReplicas_ok_iff]
      simp only [hempty, false_or, not_lt.mp hshort, true_and]

/-- When carrying out a settlement leaves the state as it was before the provisional volume was bound. -/
def Settlement.Restores (st : Settlement σ) (deleted : Prop) : Prop :=
  match st with
  | .keep => True
  | .fail _ undo => if undo then deleted else False
  | .complete _ => True

theorem settle_intact_iff {s₀ : State σ} {req : JvckVolumePrepareReq} (hv : v.volumePath = req.volumePath)
    (hentries : s.entries = s₀.entries) (hvolumes : s.volumes = s₀.volumes) (hfaults : s.faults = s₀.faults)
    (h : s₀.entries[req.volumePath]? = none) (keep : JvckVolumePrepareResp) (st : Settlement σ) :
    FailsIntact (settle req f keep st (bindProvisional v f s)) s₀ ↔
      st.Restores (s.filters f ≠ none ∧ Function.update s.filters f none = s₀.filters) := by
  rw [← hv] at h
  cases st with
  | keep => exact ⟨fun _ => trivial, fun _ => .of_ok⟩
  | complete o => exact ⟨fun _ => trivial, fun _ => .of_ok⟩
  | fail e undo =>
    cases undo with
    | true =>
      have hab := abandon_spec (f := f) hentries hvolumes hfaults h
      rw [hv] at hab
      exact failsIntact_error.trans hab
    | false =>
      constructor
      · intro hi
        have hentry : (bindProvisional v f s).entries[v.volumePath]? = some s.nextVolume := bindProvisional_entry
        have hsame : (bindProvisional v f s).entries = s₀.entries := (failsIntact_error.mp hi).entries
        rw [hsame, h] at hentry
        cases hentry
      · rintro ⟨⟩

/-- A full attach restores the state unless it fails by a bare `?`, or undoes and the filter was not its own. -/
theorem restores_fullAttach_iff (onAttach : VckResult (IoConfig × σ)) (sectorSize : UInt32)
    (openSweep : VckResult Unit) (deleted : Prop) :
    (fullAttach onAttach sectorSize openSweep).Restores deleted ↔
      ¬ AnswersPassthrough onAttach ∧ ((∃ e, onAttach = .error e) ∨ (∃ e, openSweep = .error e) → deleted) := by
  cases onAttach with
  | error e =>
    have hp : ¬ AnswersPassthrough (.error e : VckResult (IoConfig × σ)) := by
      rintro ⟨st, hst⟩
      cases hst
    simp [fullAttach, Settlement.Restores, hp]
  | ok x =>
    obtain ⟨config, st⟩ := x
    cases hg : geometry config with
    | none =>
      have hconfig : config = .passthrough := by
        cases config with
        | passthrough => rfl
        | encrypted c o e => cases hg
        | custom o e => cases hg
      subst hconfig
      simp [fullAttach, Settlement.Restores, geometry, AnswersPassthrough]
    | some g =>
      have hp : ¬ AnswersPassthrough (.ok (config, st) : VckResult (IoConfig × σ)) := by
        rintro ⟨st', hst⟩
        obtain ⟨rfl, -⟩ := Prod.mk.inj (Except.ok.inj hst)
        cases hg
      cases openSweep with
      | error e => simp [fullAttach, Settlement.Restores, hg, hp]
      | ok u => simp [fullAttach, Settlement.Restores, hg, hp]

/-- On the AddDevice path the filter was there before or is gone, and an undo deletes it. -/
theorem addDevicePath_intact_iff {k : PrepareAnswers σ} {req : JvckVolumePrepareReq}
    (h : s.entries[req.volumePath]? = none) :
    FailsIntact (handleJvckPrepareAddDevicePath k req f s) s ↔
      ¬ (AddDeviceReaches k req ∧ (AnswersPassthrough k.onAttach ∨ ∃ e, k.onAttach = .error e)) := by
  unfold handleJvckPrepareAddDevicePath AddDeviceReaches
  cases hq : k.query with
  | error e => simpa using FailsIntact.of_refl _
  | ok g =>
    obtain ⟨sectorSize, totalSectors⟩ := g
    simp only [addDeviceLayout]
    have hwrite := writeBeforeBind_ok_iff k req sectorSize totalSectors
    cases hw : writeBeforeBind k req (replicaLayout sectorSize totalSectors req.options) with
    | error e =>
      have hnot : ¬ BlockWritten k req sectorSize totalSectors := fun hb => by
        rw [hwrite.mpr hb] at hw
        cases hw
      simpa [hnot] using FailsIntact.of_refl _
    | ok u =>
      have hblock : BlockWritten k req sectorSize totalSectors := hwrite.mp hw
      simp only
      rw [settle_intact_iff (by rfl) rfl rfl rfl h]
      by_cases hvmk : req.vmk = []
      · simp [hvmk, Settlement.Restores]
      · have hgone : ¬ (s.filters f ≠ none ∧ Function.update s.filters f none = s.filters) := by
          rintro ⟨halive, hsame⟩
          exact halive (Function.update_eq_self_iff.mp hsame).symm
        rw [if_neg hvmk, restores_fullAttach_iff, eq_false hgone]
        simp [hvmk, hblock]

/-- The filter of the fallback path is its own, and deleting it restores the set of filters. -/
theorem createFilter_undone (lower : DeviceId) :
    (s.createFilter lower).2.filters (s.createFilter lower).1 ≠ none ∧
      Function.update (s.createFilter lower).2.filters (s.createFilter lower).1 none = s.filters := by
  rw [createFilter_fst, createFilter_filters]
  constructor
  · rw [Function.update_self]
    exact Option.some_ne_none _
  · rw [Function.update_idem, Function.update_eq_self_iff, s.created _ le_rfl]

/-- The settlement of the fallback path undoes everything but a `Passthrough` answer. -/
theorem restores_fallbackSettlement_iff {k : PrepareAnswers σ} {req : JvckVolumePrepareReq} {sectorSize : UInt32}
    {totalSectors : UInt64} {deleted : Prop} (hdel : deleted) :
    (fallbackSettlement k req (replicaLayout sectorSize totalSectors req.options)).Restores deleted ↔
      ¬ (req.vmk ≠ [] ∧ BlockWritten k req sectorSize totalSectors ∧
        (req.metadataBlock = [] ∨ k.openMetadata = .ok ()) ∧ (∃ g, k.probe = .ok g) ∧
          AnswersPassthrough k.onAttach) := by
  have hfail : ∀ e, (Settlement.fail e true : Settlement σ).Restores deleted := fun _ => hdel
  have hrest : (if req.vmk = [] then (.keep : Settlement σ) else
      match k.probe with
      | .error e => .fail e true
      | .ok (sectorSize, _) => fullAttach k.onAttach sectorSize k.openSweep).Restores deleted ↔
        ¬ (req.vmk ≠ [] ∧ (∃ g, k.probe = .ok g) ∧ AnswersPassthrough k.onAttach) := by
    by_cases hvmk : req.vmk = []
    · simp [hvmk, Settlement.Restores]
    · rw [if_neg hvmk]
      cases hp : k.probe with
      | error e => simpa using hfail e
      | ok g =>
        obtain ⟨ss, total⟩ := g
        simp [restores_fullAttach_iff, hdel, hvmk]
  unfold fallbackSettlement BlockWritten
  by_cases hempty : req.metadataBlock = []
  · simpa [hempty] using hrest
  · by_cases hshort : req.metadataBlock.length < JvckMetadata.metadataBlockSize
    · have hlong : ¬ JvckMetadata.metadataBlockSize ≤ req.metadataBlock.length := by omega
      simpa [hempty, hshort, hlong] using hfail _
    · have hlong : JvckMetadata.metadataBlockSize ≤ req.metadataBlock.length := by omega
      simp only [hempty, hshort, if_false, false_or, hlong, true_and]
      cases ho : k.openMetadata with
      | error e => simpa [Except.bind] using hfail e
      | ok u =>
        simp only [Except.bind]
        have hw := writeReplicas_ok_iff k.writeFault (replicaLayout sectorSize totalSectors req.options).replicaLbas
        cases hwr : writeReplicas k.writeFault (replicaLayout sectorSize totalSectors req.options).replicaLbas with
        | error e =>
          rw [← hw, hwr]
          simpa using hfail e
        | ok u =>
          rw [← hw, hwr]
          simpa using hrest

theorem fallback_intact_iff {k : PrepareAnswers σ} {req : JvckVolumePrepareReq}
    (h : s.entries[req.volumePath]? = none) :
    FailsIntact (handleJvckPrepareFallback k req s) s ↔ ¬ (FallbackReaches k req ∧ AnswersPassthrough k.onAttach) := by
  obtain ⟨⟨sectorSize, totalSectors⟩, hg⟩ : ∃ g, k.handleGeometry = g := ⟨_, rfl⟩
  unfold handleJvckPrepareFallback FallbackReaches
  simp only [hg, fallbackLayout]
  by_cases hzero : sectorSize = 0 ∨ totalSectors = 0
  · rw [if_pos hzero]
    have hno : ¬ (sectorSize ≠ 0 ∧ totalSectors ≠ 0) := by
      rintro ⟨h₁, h₂⟩
      exact hzero.elim h₁ h₂
    refine ⟨fun _ hl => hno ⟨hl.1.2.1, hl.1.2.2.1⟩, fun _ => .of_refl _⟩
  · rw [if_neg hzero]
    obtain ⟨h₁, h₂⟩ := not_or.mp hzero
    cases ha : k.attach with
    | error e => simpa using FailsIntact.of_refl _
    | ok lower =>
      simp only
      rw [settle_intact_iff (by rfl) (by rfl) (by rfl) (by rfl) h,
        restores_fallbackSettlement_iff (createFilter_undone lower)]
      simp only [ne_eq, h₁, h₂, not_false_eq_true, true_and, Except.ok.injEq, exists_eq', and_assoc]

theorem prepare_intact_iff (k : PrepareAnswers σ) (input : VckResult JvckVolumePrepareReq) (s : State σ) :
    FailsIntact ((Request.prepare k input).handle s) s ↔ ¬ (Request.prepare k input).Leaks s := by
  rw [Request.handle, failsIntact_map]
  cases input with
  | error e => simpa [Request.Leaks, handleJvckPrepare] using FailsIntact.of_refl _
  | ok req =>
    simp only [Request.Leaks, handleJvckPrepare, Except.ok.injEq, exists_eq_left']
    cases he : s.entries[req.volumePath]? with
    | some id =>
      obtain ⟨v, hv, -⟩ := s.named he
      simpa [get_eq_some_iff.mpr ⟨he, hv⟩] using FailsIntact.of_refl _
    | none =>
      rw [get_eq_none_iff.mpr he]
      cases hd : s.driverObject with
      | false => simpa using FailsIntact.of_refl _
      | true =>
        cases hf : findFilterForVolume k.find req.ntPath s with
        | none => simpa using fallback_intact_iff he
        | some x =>
          obtain ⟨f, lower⟩ := x
          simpa using addDevicePath_intact_iff he

theorem attach_intact (k : AttachAnswers σ) (input : VckResult JvckVolumeAttachReq) (s : State σ) :
    FailsIntact (handleJvckAttach k input s) s := by
  unfold handleJvckAttach
  split
  · exact .of_refl _
  split
  · exact .of_refl _
  split
  · exact .of_refl _
  split
  · exact .of_refl _
  · exact .of_ok

theorem detachVolume_of_none (k : DetachAnswers) {p : String} (ignoreOpenFiles keepFilter : Bool) (h : s.get p = none) :
    detachVolumeWithDismount k p ignoreOpenFiles keepFilter s = (.error (.notFound "volume is not attached"), s) := by
  rw [detachVolumeWithDismount, State.remove, h, erase_of_get_eq_none h]

theorem detachVolume_of_some (k : DetachAnswers) {p : String} {id : VolId} {v : Volume σ}
    (ignoreOpenFiles keepFilter : Bool) (h : s.get p = some (id, v)) :
    detachVolumeWithDismount k p ignoreOpenFiles keepFilter s =
      if k.handle && !k.lock && !ignoreOpenFiles then
        (.error (.io "FSCTL_LOCK_VOLUME failed (files open)"), ((s.erase p).swapFilterDevice id).2)
      else (.ok (), teardown keepFilter v.filterDevice ((s.erase p).swapFilterDevice id).2) := by
  obtain ⟨-, hv⟩ := get_eq_some_iff.mp h
  have hswap : ((s.erase p).swapFilterDevice id).1 = v.filterDevice := swapFilterDevice_fst hv
  rw [detachVolumeWithDismount, State.remove, h, ← hswap]

/-- DETACH that gets to the removal is all right unless the volume cannot be locked. -/
theorem detachVolume_intact_iff (k : DetachAnswers) (p : String) (s : State σ) :
    FailsIntact (detachVolumeWithDismount k p false true s) s ↔
      ¬ (s.entries[p]? ≠ none ∧ k.handle = true ∧ k.lock = false) := by
  cases he : s.entries[p]? with
  | none =>
    rw [detachVolume_of_none k _ _ (get_eq_none_iff.mpr he)]
    simpa using FailsIntact.of_refl _
  | some id =>
    obtain ⟨v, hv, -⟩ := s.named he
    rw [detachVolume_of_some k _ _ (get_eq_some_iff.mpr ⟨he, hv⟩)]
    simp only [ne_eq, reduceCtorEq, not_false_eq_true, true_and]
    by_cases hlock : k.handle = true ∧ k.lock = false
    · simp only [hlock, Bool.not_false, Bool.and_self, if_true, and_self, not_true, iff_false]
      intro hi
      have hentries := (failsIntact_error.mp hi).entries
      have hentry : ((s.erase p).swapFilterDevice id).2.entries[p]? = none := by
        rw [swapFilterDevice_entries, erase_entry, if_pos rfl]
      rw [hentries, he] at hentry
      cases hentry
    · rw [if_neg (by simpa using hlock)]
      exact ⟨fun _ => hlock, fun _ => .of_ok⟩

theorem detach_intact_iff (k : DetachAnswers) (input : VckResult VolumeRequest) (s : State σ) :
    FailsIntact ((Request.detach k input : Request σ).handle s) s ↔ ¬ (Request.detach k input).Leaks s := by
  cases input with
  | error e => simpa [Request.handle, Request.Leaks, handleDetach] using FailsIntact.of_refl _
  | ok req =>
    simp only [Request.handle, Request.Leaks, handleDetach, Except.ok.injEq, exists_eq_left']
    cases hr : detachRefused s req.volumePath with
    | true => simpa using FailsIntact.of_refl _
    | false => simpa using detachVolume_intact_iff k req.volumePath s

/-- A failed request leaves the driver's state as it was, except by the three exits that do not undo. -/
theorem failed_request_intact_iff (r : Request σ) (s : State σ) :
    ((∃ e, (r.handle s).1 = .error e) → Intact s (r.handle s).2) ↔ ¬ r.Leaks s := by
  cases r with
  | prepare k input => exact prepare_intact_iff k input s
  | detach k input => exact detach_intact_iff k input s
  | attach k input =>
    have h : FailsIntact ((Request.attach k input).handle s) s := failsIntact_map.mpr (attach_intact k input s)
    exact ⟨fun _ hl => hl, fun _ => h⟩

end Failures

section Sample

/-- A driver with one filter above a volume of 1 MiB. -/
def filterState : State Unit := addDevice ⟨1, "\\Device\\HarddiskVolume5", .ok 2⟩ (.loaded Unit none)

def sampleAnswers (onAttach : VckResult (IoConfig × Unit)) : PrepareAnswers Unit where
  find := ⟨some 1, none, "\\Device\\HarddiskVolume5", none, none⟩
  query := .ok (512, 2048)
  handleGeometry := (512, 2048)
  attach := .ok 2
  openMetadata := .ok ()
  writeFault := fun _ => none
  deviceNumber := (0, 1)
  startBytes := 0
  probe := .ok (512, 2048)
  onAttach := onAttach
  openSweep := .ok ()

/-- A request to prepare a volume with one footer replica, whose metadata is there already. -/
def sampleReq (volumePath : String) (vmk : Bytes) (isOsVolume : Bool) : JvckVolumePrepareReq :=
  ⟨volumePath, "", 0, 1, 131072, vmk, [], isOsVolume⟩

def wrongKey : VckResult (IoConfig × Unit) := .error (.cryptoFailed "metadata cannot be opened")

/-- A PREPARE of the volume with a key that does not open it. -/
def wrongKeyPrepare : Request Unit := .prepare (sampleAnswers wrongKey) (.ok (sampleReq "D:" [1] false))

/-- The driver after a PREPARE without key. -/
def preparedState : State Unit :=
  ((Request.prepare (sampleAnswers wrongKey) (.ok (sampleReq "D:" [] false))).handle filterState).2

/-- A DETACH of the volume while files are open on it. -/
def busyDetach : Request Unit := .detach ⟨true, false⟩ (.ok ⟨"D:"⟩)

/-- A PREPARE with a wrong key deletes the filter that was there before it, and a DETACH of a volume with
open files removes the volume from the registry and leaves it bound. -/
theorem failed_request_not_intact :
    ¬ ((∃ e, (wrongKeyPrepare.handle filterState).1 = .error e) →
        Intact filterState (wrongKeyPrepare.handle filterState).2) ∧
      ¬ ((∃ e, (busyDetach.handle preparedState).1 = .error e) →
        Intact preparedState (busyDetach.handle preparedState).2) := by
  constructor
  · intro h
    have hreach : AddDeviceReaches (sampleAnswers wrongKey) (sampleReq "D:" [1] false) :=
      ⟨by decide, (512, 2048), rfl, .inl rfl⟩
    have hfind : findFilterForVolume (sampleAnswers wrongKey).find (sampleReq "D:" [1] false).ntPath filterState =
        some (0, 2) := by decide +kernel
    refine (prepare_intact_iff _ _ _).mp h ⟨_, rfl, by decide +kernel, rfl, ?_⟩
    rw [hfind]
    exact ⟨hreach, .inr ⟨_, rfl⟩⟩
  · intro h
    exact (detach_intact_iff _ _ _).mp h ⟨_, rfl, by decide +kernel, by decide +kernel, rfl, rfl⟩

end Sample

end Dispatch
