import VolumeCrypt.BootCycles
import VolumeCrypt.Dispatch
import VolumeCrypt.Handover
import VolumeCrypt.HookTable
import VolumeCrypt.VckJson

/-!
# One partition from the app to the driver

The app reads the raw identifier of the OS partition and writes it, printed, into `vck.json`.
The loader parses the file, looks for the Block IO handle with that GPT identifier, hooks it
and hands the identifier over; the driver compares it with what each volume reports. Each
party holds the sixteen bytes in another form.
-/
namespace BootChain

open ByteString VckTypes SectorIo VolumeSweep Transparency LoaderHook VckJson
open BootCycles (decryptHookEngine_of_onAttach)
open DriverState (State)
open Dispatch (HandoverAnswers Opened openHandover)
open FailClosed (Firmware)
open Handover (Messagepack HandoverLocator BootServices Kernel Keeps installHandover readHandover vckHandover
  maxPayloadLen)
open HookTable (Protocol)
open JvckMetadata (leU16 leU32)
open JvckStore (JvckMetadataStore)
open Utf8Text (Text)

/-! ## Forms of a partition identifier -/

/-- `guid_from_windows_bytes`: the first three fields are stored in little-endian order. -/
def guidFromWindowsBytes (b : Fixed 16) : Guid :=
  ⟨(slice b.toList 0 4).reverse ++ (slice b.toList 4 2).reverse ++ (slice b.toList 6 2).reverse ++
    slice b.toList 8 8, by simp [slice]⟩

/-- A `windows.GUID` over its bytes in memory. -/
def windowsGuidAt (b : Fixed 16) : WindowsGuid :=
  ⟨leU32 b.toList 0, leU16 b.toList 4, leU16 b.toList 6, Fixed.ofBytes 8 (slice b.toList 8 8)⟩

/-- `PARTITION_INFORMATION_EX`, as `IOCTL_DISK_GET_PARTITION_INFO_EX` fills it. -/
abbrev PartitionInformationEx := Fixed 144

def partitionStyle (info : PartitionInformationEx) : UInt32 := leU32 info.toList 0

/-- `PARTITION_INFORMATION_GPT.PartitionId`. -/
def partitionId (info : PartitionInformationEx) : Fixed 16 := Fixed.ofBytes 16 (slice info.toList 48 16)

def partitionStyleGpt : UInt32 := 1

/-! ## The app -/

/-- `osVolumeVmkHex`, decoded. -/
def osVolumeVmk : Bytes := (List.range 32).map UInt8.ofNat

def osVolumeOsLoader : Text := "/EFI/Microsoft/Boot/bootmgfw.os.efi".toList

def readPartitionGuid (info : PartitionInformationEx) : Except String WindowsGuid :=
  if partitionStyle info ≠ partitionStyleGpt then .error "target OS volume is not on a GPT partition"
  else .ok (windowsGuidAt (partitionId info))

/-- The part of `prepareOSVolume` that writes `vck.json`. -/
def prepareOsVolume (M : JsonMarshal) (info : PartitionInformationEx) : Except String Bytes := do
  let partitionGuid ← readPartitionGuid info
  return vckJson M partitionGuid osVolumeVmk osVolumeOsLoader

/-! ## The loader -/

/-- A Block IO handle, with the firmware's answers to what the loader asks of it. -/
structure Handle where
  /-- `unique_partition_guid` of the GPT entry, where the handle has one. -/
  uniquePartitionGuid : Option (Fixed 16)
  openBlockIo : Except String Device
  mediaPresent : Bool
  /-- The instance to hook; its interface pointer may be null. -/
  openForHook : Except String (Option Protocol)

def Handle.matched (guid : Guid) (h : Handle) : Bool :=
  match h.uniquePartitionGuid with
  | some b => guidFromWindowsBytes b = guid
  | none => false

def locateBlockIoVolume (handles : Except String (List Handle)) (guid : Guid) : VckResult Device :=
  match handles with
  | .error e => .error (.io s!"locate BlockIO handles failed: {e}")
  | .ok handles =>
    match handles.find? (Handle.matched guid) with
    | none => .error (.notFound "no Block IO partition matched the target GUID")
    | some h =>
      match h.openBlockIo with
      | .error e => .error (.io s!"open BlockIO failed: {e}")
      | .ok d => if !h.mediaPresent then .error (.io "matched partition has no media present") else .ok d

/-- `BlockIoHookEngine::install`. -/
def installEngine (handles : Except String (List Handle)) (guid : Guid) (engine : BlockIoHookEngine)
    (table : HookTable.State) : VckResult HookTable.State :=
  match handles with
  | .error e => .error (.io s!"locate BlockIO handles failed: {e}")
  | .ok handles =>
    match handles.find? (Handle.matched guid) with
    | none => .error (.notFound "no Block IO partition matched the target GUID for hooking")
    | some h =>
      match h.openForHook with
      | .error e => .error (.io s!"open BlockIO for hook failed: {e}")
      | .ok none => .error (.io "BlockIO interface is null")
      | .ok (some proto) => table.install proto (some engine)

def installDecryptHook (E : Env) (handles : Except String (List Handle)) (guid : Guid) (vmk : Bytes)
    (table : HookTable.State) : VckResult HookTable.State := do
  let d ← locateBlockIoVolume handles guid
  let engine ← BootCycles.decryptHookEngine { E with vmk } d
  installEngine handles guid engine table

structure VckHandoverPayload where
  partitionGuid : Guid
  vmk : Bytes
  deriving DecidableEq

/-- What the firmware of one machine answers. -/
structure Platform where
  handles : Except String (List Handle)
  /-- `osloader_device_path`. -/
  osloaderDevicePath : Text → VckResult Unit
  bootServices : BootServices

section Loader

variable (E : Env) (parseStr : Text → Option Guid) (C : Messagepack VckHandoverPayload) (CL : Messagepack HandoverLocator)

/-- `run` up to the chainload; `file` is what stands in `vck.json`. A hook that cannot be installed is skipped. -/
def run (P : Platform) (file : Bytes) (table : HookTable.State) (m : Handover.Machine) :
    VckResult Unit × HookTable.State × Handover.Machine :=
  match VckConfig.parseJson parseStr file with
  | .error e => (.error e, table, m)
  | .ok config =>
    match P.osloaderDevicePath config.osloader with
    | .error e => (.error e, table, m)
    | .ok () =>
      let table := (installDecryptHook E P.handles config.partitionGuid config.vmk table).toOption.getD table
      let (status, m) := installHandover C CL vckHandover P.bootServices ⟨config.partitionGuid, config.vmk⟩ m
      (status, table, m)

end Loader

/-! ## The driver -/

def readGptPartitionId (info : PartitionInformationEx) : VckResult Guid :=
  if partitionStyle info ≠ partitionStyleGpt then .error (.notFound "device is not GPT-partitioned")
  else .ok (guidFromWindowsBytes (partitionId info))

/-- The device below a filter. -/
structure LowerDevice where
  device : Device
  geometry : VckResult (UInt32 × UInt64)
  partitionInfo : VckResult PartitionInformationEx

/-- The answers of a lower device and of the sample's provider to the mount with key `vmk`. -/
def handoverAnswers (E : Env) (vmk : Bytes) (lower : LowerDevice) : HandoverAnswers JvckMetadataStore where
  geometry := lower.geometry
  partitionId := lower.partitionInfo >>= readGptPartitionId
  onAttach := (onAttach { E with vmk } lower.device).map fun (offsetSector, encryptedOffset, store) =>
    (.encrypted (some (E.supplierOf store.secrets)) offsetSector encryptedOffset, store)

/-- `DriverEntry`, as far as the handover goes. -/
def driverEntry (σ : Type) (r : VckResult VckHandoverPayload) : State σ :=
  .loaded σ (r.toOption.map (·.partitionGuid))

/-! ## One identifier in three forms -/

theorem leBytes_leNat_slice {b : Bytes} {off n : Nat} (h : off + n ≤ b.length) :
    leBytes n (leNat (slice b off n) % 256 ^ n) = slice b off n := by
  have hlen := length_slice_of_le h
  have hlt := leNat_lt (slice b off n)
  have hback := leBytes_leNat (slice b off n)
  rw [hlen] at hlt hback
  rw [Nat.mod_eq_of_lt hlt, hback]

/-- The app prints the fields of the raw bytes as the loader and the driver read them. -/
theorem canonical_windowsGuidAt (b : Fixed 16) : (windowsGuidAt b).canonical = guidFromWindowsBytes b := by
  have hb : b.toList.length = 16 := b.toList_length
  apply List.Vector.eq
  have h₁ : leBytes 4 (leU32 b.toList 0).toNat = slice b.toList 0 4 := by
    rw [leU32, UInt32.toNat_ofNat']
    exact leBytes_leNat_slice (by omega)
  have h₂ (off : Nat) (h : off + 2 ≤ 16) : leBytes 2 (leU16 b.toList off).toNat = slice b.toList off 2 := by
    rw [leU16, UInt16.toNat_ofNat']
    exact leBytes_leNat_slice (by omega)
  change (leBytes 4 (leU32 b.toList 0).toNat).reverse ++ (leBytes 2 (leU16 b.toList 4).toNat).reverse ++
    (leBytes 2 (leU16 b.toList 6).toNat).reverse ++ (Fixed.ofBytes 8 (slice b.toList 8 8)).toList = _
  rw [h₁, h₂ 4 (by decide), h₂ 6 (by decide), Fixed.toList_ofBytes (length_slice_of_le (by omega))]
  rfl

theorem guidFromWindowsBytes_injective : Function.Injective guidFromWindowsBytes := by
  intro a b h
  have ha : a.toList.length = 16 := a.toList_length
  have hb : b.toList.length = 16 := b.toList_length
  have hlist : (guidFromWindowsBytes a).toList = (guidFromWindowsBytes b).toList := congrArg _ h
  change (slice a.toList 0 4).reverse ++ (slice a.toList 4 2).reverse ++ (slice a.toList 6 2).reverse ++
      slice a.toList 8 8 =
    (slice b.toList 0 4).reverse ++ (slice b.toList 4 2).reverse ++ (slice b.toList 6 2).reverse ++
      slice b.toList 8 8 at hlist
  obtain ⟨hfront, h₄⟩ := List.append_inj hlist (by simp [slice])
  obtain ⟨hfront, h₃⟩ := List.append_inj hfront (by simp [slice])
  obtain ⟨h₁, h₂⟩ := List.append_inj hfront (by simp [slice])
  have hparts (c : Bytes) (hc : c.length = 16) :
      c = slice c 0 4 ++ (slice c 4 2 ++ (slice c 6 2 ++ slice c 8 8)) := by
    rw [show slice c 6 2 ++ slice c 8 8 = slice c 6 10 from slice_append_slice c 6 2 8,
      show slice c 4 2 ++ slice c 6 10 = slice c 4 12 from slice_append_slice c 4 2 10,
      show slice c 0 4 ++ slice c 4 12 = slice c 0 16 from slice_append_slice c 0 4 12, ← hc, slice_all]
  apply List.Vector.eq
  rw [hparts a.toList ha, hparts b.toList hb, List.reverse_injective h₁, List.reverse_injective h₂,
    List.reverse_injective h₃, h₄]

theorem matched_iff {h : Handle} {id : Fixed 16} :
    h.matched (guidFromWindowsBytes id) = decide (h.uniquePartitionGuid = some id) := by
  rw [Handle.matched]
  cases h.uniquePartitionGuid with
  | none => simp
  | some b => simp [guidFromWindowsBytes_injective.eq_iff]

/-! ## The chain -/

/-- The hook that a handle can get. -/
def Handle.hook (E : Env) (vmk : Bytes) (h : Handle) : Option (Protocol × BlockIoHookEngine) :=
  match h.openBlockIo, h.mediaPresent, h.openForHook with
  | .ok d, true, .ok (some proto) =>
    match BootCycles.decryptHookEngine { E with vmk } d with
    | .ok engine => some (proto, engine)
    | .error _ => none
  | _, _, _ => none

/-- Where the hook goes and what it holds, by the raw identifier alone. -/
def hookTarget (E : Env) (handles : Except String (List Handle)) (id : Fixed 16) (vmk : Bytes) :
    Option (Protocol × BlockIoHookEngine) :=
  match handles with
  | .error _ => none
  | .ok handles => (handles.find? (·.uniquePartitionGuid = some id)).bind (Handle.hook E vmk)

/-- The installs of one boot. -/
def hookOps (target : Option (Protocol × BlockIoHookEngine)) : List HookTable.Op :=
  match target with
  | none => []
  | some (proto, engine) => [.install proto (some engine)]

/-- The hook that serves a protocol after the loader. -/
def hookOf (target : Option (Protocol × BlockIoHookEngine)) (p : Protocol) : Option FailClosed.HookEntry :=
  match target with
  | none => none
  | some (proto, engine) => if proto = p then some ⟨some engine⟩ else none

/-- The lower device is a GPT partition with this raw identifier. -/
def LowerDevice.Reports (lower : LowerDevice) (id : Fixed 16) : Prop :=
  ∃ info, lower.partitionInfo = .ok info ∧ partitionStyle info = partitionStyleGpt ∧ partitionId info = id

section Chain

variable {E : Env} {parseStr : Text → Option Guid} {C : Messagepack VckHandoverPayload}
  {CL : Messagepack HandoverLocator} {M : JsonMarshal} {P : Platform} {info : PartitionInformationEx} {file : Bytes}
  {id : Fixed 16} {vmk : Bytes} {table table₁ : HookTable.State} {m m₁ m₂ : Handover.Machine}

theorem getD_install (table : HookTable.State) (p : Protocol) (engine : Option BlockIoHookEngine) :
    (table.install p engine).toOption.getD table = HookTable.step table (.install p engine) := by
  rw [HookTable.step]
  cases table.install p engine <;> rfl

/-- The loader hooks the target of the raw identifier, or nothing. -/
theorem installDecryptHook_eq (handles : Except String (List Handle)) :
    (installDecryptHook E handles (guidFromWindowsBytes id) vmk table).toOption.getD table =
      HookTable.run table (hookOps (hookTarget E handles id vmk)) := by
  have hmatched : Handle.matched (guidFromWindowsBytes id) = fun h => decide (h.uniquePartitionGuid = some id) := by
    funext h
    exact matched_iff
  cases handles with
  | error e => rfl
  | ok handles =>
    simp only [installDecryptHook, hookTarget, locateBlockIoVolume, installEngine, hmatched]
    cases handles.find? (fun h => decide (h.uniquePartitionGuid = some id)) with
    | none => rfl
    | some h =>
      obtain ⟨uniqueGuid, openBlockIo, mediaPresent, openForHook⟩ := h
      simp only [Option.bind_some, Handle.hook]
      cases openBlockIo with
      | error e => rfl
      | ok d =>
        cases mediaPresent with
        | false => rfl
        | true =>
          change ((BootCycles.decryptHookEngine { E with vmk } d >>= _).toOption.getD table) = _
          cases hengine : BootCycles.decryptHookEngine { E with vmk } d with
          | error e =>
            rcases openForHook with e | _ | proto
            · rfl
            · rfl
            · simp only [hengine]
              rfl
          | ok engine =>
            rcases openForHook with e | _ | proto
            · rfl
            · rfl
            · simp only [hengine]
              exact getD_install table proto (some engine)

/-- The prepared file sends the loader to the partition it was prepared for. -/
theorem run_prepared (hparse : ParsesHyphenated parseStr) (hfile : prepareOsVolume M info = .ok file)
    (hrun : run E parseStr C CL P file table m = (.ok (), table₁, m₁)) :
    table₁ = HookTable.run table (hookOps (hookTarget E P.handles (partitionId info) osVolumeVmk)) ∧
      installHandover C CL vckHandover P.bootServices ⟨guidFromWindowsBytes (partitionId info), osVolumeVmk⟩ m =
        (.ok (), m₁) := by
  rw [prepareOsVolume, readPartitionGuid] at hfile
  split at hfile
  · cases hfile
  · obtain rfl := Except.ok.inj hfile
    rw [run, parseJson_vckJson M _ hparse (by decide) (by decide), canonical_windowsGuidAt] at hrun
    simp only at hrun
    split at hrun
    · cases (Prod.mk.inj hrun).1
    · rw [installDecryptHook_eq] at hrun
      obtain ⟨hok, htable, hm⟩ := Prod.mk.inj hrun |>.imp id Prod.mk.inj
      exact ⟨htable.symm, Prod.ext hok hm⟩

/-- One install on a table without hooks is in order. -/
theorem orderly_hookOps (F : Protocol → Firmware) (target : Option (Protocol × BlockIoHookEngine)) (p : Protocol) :
    HookTable.Orderly p (HookTable.booted F) (hookOps target) := by
  rcases target with _ | ⟨proto, engine⟩
  · trivial
  · refine ⟨?_, trivial⟩
    rintro engine' - ⟨⟨e, he, -⟩, -⟩
    cases he

theorem serving_hookOps (target : Option (Protocol × BlockIoHookEngine)) (p : Protocol) :
    HookTable.serving ((hookOps target).foldl HookTable.apply []) p = hookOf target p := by
  rcases target with _ | ⟨proto, engine⟩
  · rfl
  · by_cases hp : proto = p
    · simp [hookOps, HookTable.apply, HookTable.serving, HookTable.maxHooks, hookOf, hp]
    · simp [hookOps, HookTable.apply, HookTable.serving, HookTable.maxHooks, hookOf, hp]

theorem readGptPartitionId_eq_iff {info : PartitionInformationEx} :
    readGptPartitionId info = .ok (guidFromWindowsBytes id) ↔
      partitionStyle info = partitionStyleGpt ∧ partitionId info = id := by
  rw [readGptPartitionId]
  by_cases hstyle : partitionStyle info = partitionStyleGpt
  · simp [hstyle, guidFromWindowsBytes_injective.eq_iff]
  · simp [hstyle]

theorem LowerDevice.reports_iff {lower : LowerDevice} :
    lower.Reports id ↔ (lower.partitionInfo >>= readGptPartitionId) = .ok (guidFromWindowsBytes id) := by
  cases hinfo : lower.partitionInfo with
  | error e =>
    constructor
    · rintro ⟨info, h, -⟩
      rw [hinfo] at h
      cases h
    · intro h
      cases h
  | ok info =>
    change _ ↔ readGptPartitionId info = _
    rw [readGptPartitionId_eq_iff]
    constructor
    · rintro ⟨info', h, hr⟩
      rw [hinfo] at h
      obtain rfl := Except.ok.inj h
      exact hr
    · intro hr
      exact ⟨info, hinfo, hr⟩

/-- The driver opens a volume as the loader's hook does. -/
theorem onAttach_iff_decryptHookEngine {E : Env} {d : Device} {offsetSector : UInt64} {o : EncryptedOffset}
    {store : JvckMetadataStore} :
    onAttach E d = .ok (offsetSector, o, store) ↔
      JvckMetadataStore.openStore E.primitives d E.vmk = .ok store ∧
        BootCycles.decryptHookEngine E d = .ok ⟨⟨offsetSector, o⟩, E.supplierOf store.secrets⟩ := by
  constructor
  · intro h
    exact ⟨(onAttach_ok_iff.mp h).1, decryptHookEngine_of_onAttach h⟩
  · rintro ⟨hopen, hhook⟩
    rw [BootCycles.decryptHookEngine, hopen] at hhook
    change (store.loadOffset E.primitives d >>= _) = _ at hhook
    rw [onAttach, hopen]
    change (store.loadOffset E.primitives d >>= _) = _
    cases hload : store.loadOffset E.primitives d with
    | error e =>
      rw [hload] at hhook
      cases hhook
    | ok sector =>
      rw [hload] at hhook
      obtain ⟨hgeom, -⟩ := BlockIoHookEngine.mk.inj (Except.ok.inj hhook)
      obtain ⟨rfl, rfl⟩ := HookGeometry.mk.inj hgeom
      rfl

/-- What the driver has opened on a lower device, when the loader's hook would open the same there. -/
def OpensAsHook (E : Env) (vmk : Bytes) (lower : LowerDevice) (o : Opened JvckMetadataStore) : Prop :=
  ∃ sectors offsetSector encryptedOffset store, lower.geometry = .ok (o.sectorSize, sectors) ∧
    JvckMetadataStore.openStore E.primitives lower.device vmk = .ok store ∧
    BootCycles.decryptHookEngine { E with vmk } lower.device =
      .ok ⟨⟨offsetSector, encryptedOffset⟩, E.supplierOf store.secrets⟩ ∧
    o = ⟨o.sectorSize, .encrypted (some (E.supplierOf store.secrets)) offsetSector encryptedOffset, offsetSector,
      encryptedOffset, store⟩

theorem openHandover_iff {lower : LowerDevice} {s : State JvckMetadataStore} {o : Opened JvckMetadataStore}
    (hs : s.handover = some (guidFromWindowsBytes id)) :
    openHandover (handoverAnswers E vmk lower) s = some o ↔ lower.Reports id ∧ OpensAsHook E vmk lower o := by
  rw [LowerDevice.reports_iff, openHandover, hs]
  simp only [handoverAnswers, Option.bind_eq_bind, Option.bind_some]
  cases hgeom : lower.geometry with
  | error e =>
    constructor
    · intro h
      cases h
    · rintro ⟨-, sectors, offsetSector, encryptedOffset, store, h, -⟩
      rw [hgeom] at h
      cases h
  | ok geom =>
    obtain ⟨sectorSize, sectors⟩ := geom
    cases hid : (lower.partitionInfo >>= readGptPartitionId) with
    | error e =>
      constructor
      · intro h
        cases h
      · rintro ⟨h, -⟩
        cases h
    | ok guid =>
      simp only [Except.toOption, Option.bind_some, Except.ok.injEq]
      by_cases hguid : guid = guidFromWindowsBytes id
      · rw [if_neg (not_not.mpr hguid)]
        cases hatt : onAttach { E with vmk } lower.device with
        | error e =>
          constructor
          · intro h
            cases h
          · rintro ⟨-, -, offsetSector, encryptedOffset, store, -, hopen, hhook, -⟩
            have hok := onAttach_iff_decryptHookEngine.mpr ⟨hopen, hhook⟩
            rw [hatt] at hok
            cases hok
        | ok x =>
          obtain ⟨offsetSector, encryptedOffset, store⟩ := x
          obtain ⟨hopen, hhook⟩ := onAttach_iff_decryptHookEngine.mp hatt
          constructor
          · intro h
            obtain rfl := Option.some.inj h
            exact ⟨hguid, sectors, offsetSector, encryptedOffset, store, hgeom, hopen, hhook, rfl⟩
          · rintro ⟨-, sectors', offsetSector', encryptedOffset', store', hg, hopen', hhook', ho⟩
            have hok := onAttach_iff_decryptHookEngine.mpr ⟨hopen', hhook'⟩
            rw [hatt] at hok
            cases hok
            rw [hgeom] at hg
            rw [ho, ← (Prod.mk.inj (Except.ok.inj hg)).1]
            rfl
      · rw [if_pos hguid]
        constructor
        · intro h
          cases h
        · rintro ⟨h, -⟩
          exact absurd h hguid

/-- The app prepares a partition; the loader that reads its file hooks the first Block IO handle with the same raw
identifier and no other; the driver whose kernel reads the handover mounts the volumes that report this identifier and
open under the app's key, with the boundary and the cipher that the loader's hook has on the same device. -/
theorem boot_chain_agrees (hparse : ParsesHyphenated parseStr) (hC : C.Lawful) (hCL : CL.Lawful)
    {F : Protocol → Firmware} (hfile : prepareOsVolume M info = .ok file)
    (hrun : run E parseStr C CL P file (HookTable.booted F) m = (.ok (), table, m₁)) {data : Bytes} {address : UInt64}
    (henc : C.toVec ⟨guidFromWindowsBytes (partitionId info), osVolumeVmk⟩ = .ok data)
    (hshort : data.length ≤ maxPayloadLen) (halloc : P.bootServices.allocatePool data.length = .ok address)
    (haddr : address ≠ 0) (hkeep : Keeps vckHandover address.toNat data.length m₁ m₂) {k : Kernel} (hk : k.Reads m₂)
    (hfetch : k.Fetches vckHandover) (hmapped : k.mapped = true) :
    (∀ p media lba d size fuel call buffer,
      table.callRead p media lba size d (fuel + 2) (table.instances p).readBlocks call buffer =
        some (HookTable.read (F p) (hookOf (hookTarget E P.handles (partitionId info) osVolumeVmk) p) media call lba size
          buffer d) ∧
      table.callWrite p media lba d (fuel + 2) (table.instances p).writeBlocks call size buffer =
        some (HookTable.write (F p) (hookOf (hookTarget E P.handles (partitionId info) osVolumeVmk) p) media call lba size
          buffer d)) ∧
    (readHandover C CL k vckHandover m₂).1 = .ok ⟨guidFromWindowsBytes (partitionId info), osVolumeVmk⟩ ∧
    ∀ lower o,
      openHandover (handoverAnswers E osVolumeVmk lower)
          (driverEntry JvckMetadataStore (readHandover C CL k vckHandover m₂).1) = some o ↔
        lower.Reports (partitionId info) ∧ OpensAsHook E osVolumeVmk lower o := by
  obtain ⟨htable, hinst⟩ := run_prepared hparse hfile hrun
  have hsize : data.length < 2 ^ 64 := Nat.lt_of_le_of_lt hshort (by decide)
  have hread := ((Handover.installHandover_staged henc halloc hinst).keep hkeep).readHandover_eq hC hCL henc hsize haddr
    hk hfetch
  rw [if_neg (Nat.not_lt.mpr hshort), if_pos hmapped] at hread
  refine ⟨?_, by rw [hread], ?_⟩
  · intro p media lba d size fuel call buffer
    have hsound := (HookTable.sound_booted F p).run (HookTable.tracks_booted F)
      (orderly_hookOps F (hookTarget E P.handles (partitionId info) osVolumeVmk) p)
    rw [← htable] at hsound
    rw [hsound.callRead, hsound.callWrite, serving_hookOps]
    exact ⟨rfl, rfl⟩
  · intro lower o
    apply openHandover_iff
    rw [hread]
    rfl

end Chain

/-! ## One boot -/

section Sample

/-- A GPT partition. -/
def sampleInfo : PartitionInformationEx :=
  Fixed.ofBytes 144 ([1, 0, 0, 0] ++ List.replicate 44 0 ++
    [0x5a, 0x95, 0x77, 0x0f, 0x3e, 0xf6, 0x11, 0xf1, 0x8b, 0x5c, 0xb4, 0x2e, 0x99, 0x11, 0x84, 0x0a])

def samplePayload : VckHandoverPayload := ⟨guidFromWindowsBytes (partitionId sampleInfo), osVolumeVmk⟩

/-- A map of the two fields, the identifier as sixteen raw bytes and the key as an array. -/
def samplePayloadBytes : Bytes :=
  [0x82, 0xae, 0x70, 0x61, 0x72, 0x74, 0x69, 0x74, 0x69, 0x6f, 0x6e, 0x5f, 0x67, 0x75, 0x69, 0x64, 0xc4, 0x10] ++
    samplePayload.partitionGuid.toList ++ [0xa3, 0x76, 0x6d, 0x6b, 0xdc, 0x00, 0x20] ++ osVolumeVmk

def samplePayloadCodec : Messagepack VckHandoverPayload := .single samplePayload samplePayloadBytes

def sampleLocatorCodec : Messagepack HandoverLocator :=
  .single (.new 4096 (UInt64.ofNat 73)) (Handover.sampleLocator.dropLast ++ [73])

/-- A disk without a GPT entry, and the partition. -/
def samplePlatform : Platform where
  handles := .ok [⟨none, .ok headerDevice, true, .ok (some 1)⟩,
    ⟨some (partitionId sampleInfo), .ok headerDevice, true, .ok (some 2)⟩]
  osloaderDevicePath _ := .ok ()
  bootServices := Handover.sampleServices

theorem samplePayload_encoded : samplePayloadCodec.toVec samplePayload = .ok samplePayloadBytes :=
  Handover.Messagepack.toVec_single _ _

theorem length_samplePayloadBytes : samplePayloadBytes.length = 73 := by
  simp [samplePayloadBytes, osVolumeVmk]

def sampleRun : VckResult Unit × HookTable.State × Handover.Machine :=
  run headerEnv parseHyphenated samplePayloadCodec sampleLocatorCodec samplePlatform
    (vckJson goMarshal (windowsGuidAt (partitionId sampleInfo)) osVolumeVmk osVolumeOsLoader)
    (HookTable.booted fun _ => FailClosed.diskFirmware) ⟨fun _ => 0, fun _ => none⟩

/-- The boot publishes the locator and nothing else. -/
theorem sampleRun_published : sampleRun.1 = .ok () ∧
    sampleRun.2.2.vars = Function.update (fun _ => none) vckHandover (some (Handover.sampleLocator.dropLast ++ [73])) := by
  have hloc : sampleLocatorCodec.toVec (.new 4096 (UInt64.ofNat 73)) =
      .ok (Handover.sampleLocator.dropLast ++ [73]) := Handover.Messagepack.toVec_single _ _
  have hinst (m : Handover.Machine) : (installHandover samplePayloadCodec sampleLocatorCodec vckHandover
      Handover.sampleServices samplePayload m).1 = .ok () ∧
        (installHandover samplePayloadCodec sampleLocatorCodec vckHandover Handover.sampleServices samplePayload m).2.vars =
          Function.update m.vars vckHandover (some (Handover.sampleLocator.dropLast ++ [73])) := by
    simp only [installHandover, samplePayload_encoded, length_samplePayloadBytes, Handover.sampleServices, hloc,
      and_self]
  rw [sampleRun, run, parseJson_vckJson goMarshal _ parseHyphenated_parses (by decide) (by decide),
    canonical_windowsGuidAt]
  exact hinst ⟨fun _ => 0, fun _ => none⟩

/-- The driver of the sample machine knows the partition and the key of the app. -/
theorem boot_chain_agrees_sample :
    (readHandover samplePayloadCodec sampleLocatorCodec sampleRun.2.2.kernel vckHandover sampleRun.2.2).1 =
      .ok samplePayload := by
  have hfile : prepareOsVolume goMarshal sampleInfo =
      .ok (vckJson goMarshal (windowsGuidAt (partitionId sampleInfo)) osVolumeVmk osVolumeOsLoader) := by
    rw [prepareOsVolume, readPartitionGuid, if_neg (by decide)]
    rfl
  have hC : samplePayloadCodec.Lawful := Handover.Messagepack.lawful_single samplePayload (List.cons_ne_nil _ _)
  have hCL : sampleLocatorCodec.Lawful := Handover.Messagepack.lawful_single (HandoverLocator.new 4096 (UInt64.ofNat 73))
    (by decide)
  have heta {x : VckResult Unit × HookTable.State × Handover.Machine} (h : x.1 = .ok ()) :
      x = (.ok (), x.2.1, x.2.2) := by
    rw [← h]
  obtain ⟨hok, hvars⟩ := sampleRun_published
  have hrun : sampleRun = (.ok (), sampleRun.2.1, sampleRun.2.2) := heta hok
  have halloc : samplePlatform.bootServices.allocatePool samplePayloadBytes.length = .ok 4096 := rfl
  have hshort : samplePayloadBytes.length ≤ maxPayloadLen := by
    rw [length_samplePayloadBytes]
    decide
  have hkeep : Keeps vckHandover (4096 : UInt64).toNat samplePayloadBytes.length sampleRun.2.2 sampleRun.2.2 :=
    ⟨rfl, fun _ _ => rfl⟩
  have hreads : sampleRun.2.2.kernel.Reads sampleRun.2.2 := Handover.Machine.kernel_reads_of_update hvars (by decide)
  have hfetch : sampleRun.2.2.kernel.Fetches vckHandover := by
    have hvar : sampleRun.2.2.vars vckHandover = some (Handover.sampleLocator.dropLast ++ [73]) := by
      rw [hvars, Function.update_self]
    exact Handover.Machine.kernel_fetches hvar (List.cons_ne_nil _ _) (by decide)
  exact (boot_chain_agrees parseHyphenated_parses hC hCL hfile hrun samplePayload_encoded hshort halloc (by decide) hkeep
    hreads hfetch rfl).2.1

end Sample

end BootChain
