import VolumeCrypt.StartRequest

/-!
# The control device

`dispatch_any` of the sample driver, `dispatch_ioctl` of `lib/windrv/src/ioctl/dispatch.rs` and the
authorization of the sample's provider. Everybody may ask for the status and the progress of a
volume; every other code asks for an administrator or for the kernel itself.
-/
namespace ControlDevice

open ByteString VckTypes SectorIo SweepEngine DriverState Dispatch StartRequest
open JvckMetadata (Primitives)
open JvckStore (JvckMetadataStore)

/-! ## Codes -/

/-- `CTL_CODE`. -/
def ctlCode (deviceType function method access : UInt32) : UInt32 :=
  (deviceType <<< 16) ||| (access <<< 14) ||| (function <<< 2) ||| method

def methodBuffered : UInt32 := 0

def fileReadAccess : UInt32 := 0x0001

def fileWriteAccess : UInt32 := 0x0002

def fileDeviceVck : UInt32 := 0x22

inductive Ioctl where
  | getStatus
  | startEncrypt
  | startDecrypt
  | getProgress
  | pause
  | jvckAttach
  | detach
  | jvckPrepare
  | pauseOsVolume
  | detachAllVolumes
  | benchAes
  | listVolumes
  deriving DecidableEq, Repr

namespace Ioctl

def function : Ioctl → UInt32
  | getStatus => 0x800
  | startEncrypt => 0x801
  | startDecrypt => 0x802
  | getProgress => 0x803
  | pause => 0x804
  | jvckAttach => 0x805
  | detach => 0x806
  | jvckPrepare => 0x807
  | pauseOsVolume => 0x808
  | detachAllVolumes => 0x809
  | benchAes => 0x80a
  | listVolumes => 0x80b

def access : Ioctl → UInt32
  | getStatus | getProgress | benchAes | listVolumes => fileReadAccess
  | _ => fileWriteAccess

def code (i : Ioctl) : UInt32 := ctlCode fileDeviceVck i.function methodBuffered i.access

def all : List Ioctl :=
  [getStatus, startEncrypt, startDecrypt, getProgress, pause, jvckPrepare, jvckAttach, detach, pauseOsVolume,
    detachAllVolumes, benchAes, listVolumes]

/-- The arm of `dispatch_ioctl` that a code selects. -/
def ofCode (code : UInt32) : Option Ioctl := all.find? (·.code = code)

/-- No two codes are the same, so the order of the arms does not matter. -/
theorem ofCode_code (i : Ioctl) : ofCode i.code = some i := by
  cases i <;> decide

end Ioctl

/-! ## Authorization -/

inductive RequestorMode where
  | kernel
  | user
  deriving DecidableEq, Repr

structure IoctlAuthContext where
  ioctlCode : UInt32
  requestorMode : RequestorMode
  /-- Whether the token of the requestor, if there is one, is that of an administrator. -/
  requestorToken : Option Bool

def requireAdministrator (ctx : IoctlAuthContext) : VckResult Unit :=
  if ctx.requestorMode = .kernel then .ok ()
  else if ctx.requestorToken = some true then .ok ()
  else .error (.permissionDenied "administrator privilege required")

def authorize (ctx : IoctlAuthContext) : VckResult Unit :=
  if ctx.ioctlCode = Ioctl.getProgress.code ∨ ctx.ioctlCode = Ioctl.getStatus.code then .ok ()
  else requireAdministrator ctx

/-! ## Requests and responses -/

/-- The state of an engine as the responses carry it. -/
def asWire : EngineState → Nat
  | .idle => 0
  | .encrypting => 1
  | .decrypting => 2
  | .paused => 3

structure VolumeStatus where
  volumePath : String
  state : Nat
  encryptedSector : UInt64
  totalSectors : UInt64
  sectorSize : UInt32
  isAttached : Bool
  filterBelowFsd : Bool

structure VolumeListEntry where
  volumePath : String
  state : Nat
  encryptedSector : UInt64
  totalSectors : UInt64
  sectorSize : UInt32
  isOsVolume : Bool

structure ProgressEvent where
  encryptedSector : UInt64
  totalSectors : UInt64
  state : Nat
  error : String

/-- `decode_req` and `encode_resp` for the types of the requests and responses. -/
structure Wire where
  prepareReq : Bytes → VckResult JvckVolumePrepareReq
  attachReq : Bytes → VckResult JvckVolumeAttachReq
  volumeReq : Bytes → VckResult VolumeRequest
  prepareResp : JvckVolumePrepareResp → VckResult Bytes
  attachResp : JvckVolumeAttachResp → VckResult Bytes
  emptyResp : VckResult Bytes
  status : VolumeStatus → VckResult Bytes
  progress : ProgressEvent → VckResult Bytes
  list : List VolumeListEntry → VckResult Bytes

/-- What the kernel and the provider answer while one request is handled. -/
structure Answers where
  find : FindAnswers
  prepare : PrepareAnswers JvckMetadataStore
  attach : AttachAnswers JvckMetadataStore
  detach : DetachAnswers
  detachAll : String → DetachAnswers
  /-- The outcome of the benchmark. -/
  bench : Bytes → VckResult Bytes

section Handlers

variable (W : Wire) (P : Primitives) (k : Answers)

/-- A response is encoded after the request has been carried out. -/
def respond {α : Type} (encode : α → VckResult Bytes) (r : VckResult α × World) : VckResult Bytes × World :=
  (r.1 >>= encode, r.2)

def onState {α : Type} (w : World) (r : VckResult α × State JvckMetadataStore) : VckResult α × World :=
  (r.1, { w with state := r.2 })

def handleGetStatus (input : Bytes) (w : World) : VckResult Bytes := do
  let req ← W.volumeReq input
  let filterBelowFsd := (findFilterForVolume k.find (win32VolumePathToNt req.volumePath) w.state).isSome
  match resolveVolume k.find req.volumePath w.state with
  | some (_, v) =>
    W.status {
      volumePath := v.volumePath
      state := asWire v.encryption.state
      encryptedSector := v.encryption.encryptedOffset.sector
      totalSectors := v.encryption.encryptedOffset.totalSectors
      sectorSize := v.sectorSize
      isAttached := true
      filterBelowFsd }
  | none => W.status ⟨req.volumePath, 0, 0, 0, 0, false, filterBelowFsd⟩

def handleListVolumes (w : World) : VckResult Bytes :=
  W.list (w.state.all.map fun (_, v) =>
    { volumePath := v.volumePath
      state := asWire v.encryption.state
      encryptedSector := v.encryption.encryptedOffset.sector
      totalSectors := v.encryption.encryptedOffset.totalSectors
      sectorSize := v.sectorSize
      isOsVolume := v.isOsVolume })

def handleGetProgress (input : Bytes) (w : World) : VckResult Bytes := do
  let req ← W.volumeReq input
  match resolveVolume k.find req.volumePath w.state with
  | none => .error (.notFound "volume is not attached")
  | some (_, v) =>
    W.progress ⟨v.encryption.encryptedOffset.sector, v.encryption.encryptedOffset.totalSectors,
      asWire v.encryption.state, ""⟩

def pauseVolume (w : World) (id : VolId) : World :=
  { w with state := w.state.modifyAttached id fun v => { v with encryption := v.encryption.pause } }

def handlePause (input : VckResult VolumeRequest) (w : World) : VckResult Unit × World :=
  match input with
  | .error e => (.error e, w)
  | .ok req =>
    match resolveVolume k.find req.volumePath w.state with
    | none => (.error (.notFound "volume is not attached"), w)
    | some (id, _) => (.ok (), pauseVolume w id)

/-- The OS volumes of the registry are paused one by one. -/
def handlePauseOsVolume (w : World) : World :=
  ((w.state.all.filter (·.2.isOsVolume)).map (·.1)).foldl pauseVolume w

def dispatchIoctl (ctx : IoctlAuthContext) (input : Bytes) (w : World) : VckResult Bytes × World :=
  match authorize ctx with
  | .error e => (.error e, w)
  | .ok () =>
    match Ioctl.ofCode ctx.ioctlCode with
    | some .getStatus => (handleGetStatus W k input w, w)
    | some .startEncrypt => respond (fun _ => W.emptyResp) (handleStartEncrypt P k.find (W.volumeReq input) w)
    | some .startDecrypt => respond (fun _ => W.emptyResp) (handleStartDecrypt P k.find (W.volumeReq input) w)
    | some .getProgress => (handleGetProgress W k input w, w)
    | some .pause => respond (fun _ => W.emptyResp) (handlePause k (W.volumeReq input) w)
    | some .jvckPrepare => respond W.prepareResp (onState w (handleJvckPrepare k.prepare (W.prepareReq input) w.state))
    | some .jvckAttach => respond W.attachResp (onState w (handleJvckAttach k.attach (W.attachReq input) w.state))
    | some .detach => respond (fun _ => W.emptyResp) (onState w (handleDetach k.detach (W.volumeReq input) w.state))
    | some .pauseOsVolume => (.ok [], handlePauseOsVolume w)
    | some .detachAllVolumes => respond (fun _ => .ok []) (onState w (handleDetachAllVolumes k.detachAll w.state))
    | some .benchAes => (k.bench input, w)
    | some .listVolumes => (handleListVolumes W w, w)
    | none => (.error (.unsupported "unknown IOCTL code"), w)

end Handlers

/-! ## IRPs -/

inductive NtStatus where
  | success
  | unsuccessful
  | invalidParameter
  | invalidDeviceRequest
  | bufferTooSmall
  deriving DecidableEq, Repr

/-- The parameters of `IRP_MJ_DEVICE_CONTROL`; input and output share the system buffer. -/
structure DeviceIoControl where
  ioControlCode : UInt32
  inputBufferLength : Nat
  outputBufferLength : Nat
  systemBuffer : Option Bytes

/-- The bytes that `dispatch_ioctl` gets. -/
def DeviceIoControl.input (params : DeviceIoControl) : Option Bytes :=
  if params.inputBufferLength = 0 then some [] else params.systemBuffer.map (·.take params.inputBufferLength)

structure Completion where
  status : NtStatus
  information : Nat
  systemBuffer : Option Bytes

/-- Who has sent a request. -/
structure Requestor where
  mode : RequestorMode
  token : Option Bool

inductive Irp where
  | create
  | close
  | cleanup
  | deviceControl (params : DeviceIoControl) (requestor : Requestor)
  /-- Whether the IRPs of the two requests to the own device can be built. -/
  | shutdown (pauseBuilt detachBuilt : Bool)
  | other

section Irps

variable (W : Wire) (P : Primitives) (k : Answers)

def dispatchDeviceControl (params : DeviceIoControl) (requestor : Requestor) (w : World) : Completion × World :=
  let fail (status : NtStatus) : Completion := ⟨status, 0, params.systemBuffer⟩
  match params.input with
  | none => (fail .invalidParameter, w)
  | some input =>
    match dispatchIoctl W P k ⟨params.ioControlCode, requestor.mode, requestor.token⟩ input w with
    | (.error _, w) => (fail .unsuccessful, w)
    | (.ok response, w) =>
      if params.outputBufferLength < response.length then (fail .bufferTooSmall, w)
      else if response = [] then (⟨.success, 0, params.systemBuffer⟩, w)
      else
        match params.systemBuffer with
        | none => (fail .invalidParameter, w)
        | some buffer => (⟨.success, response.length, some (copyAt buffer 0 response)⟩, w)

/-- A request of the driver to its own device, from kernel mode and without buffers. -/
def sendSelfIoctl (built : Bool) (i : Ioctl) (w : World) : NtStatus × World :=
  if !built then (.unsuccessful, w)
  else
    let (c, w) := dispatchDeviceControl W P k ⟨i.code, 0, 0, none⟩ ⟨.kernel, none⟩ w
    (c.status, w)

def driverShutdown (built : Bool) (w : World) : World := (sendSelfIoctl W P k built .detachAllVolumes w).2

/-- `dispatch_any` on the control device. -/
def dispatchAny (irp : Irp) (w : World) : Completion × World :=
  match irp with
  | .deviceControl params requestor => dispatchDeviceControl W P k params requestor w
  | .create | .close | .cleanup => (⟨.success, 0, none⟩, w)
  | .shutdown pauseBuilt detachBuilt =>
    (⟨.success, 0, none⟩, driverShutdown W P k detachBuilt (sendSelfIoctl W P k pauseBuilt .pauseOsVolume w).2)
  | .other => (⟨.invalidDeviceRequest, 0, none⟩, w)

end Irps

/-! ## Runs -/

inductive Event where
  | irp (k : Answers) (irp : Irp)
  /-- Whatever the rest of the driver does in between. -/
  | elsewhere (change : World → World)

/-- An IRP of the kernel, or a request of the kernel or of an administrator. -/
def Irp.privileged : Irp → Bool
  | .deviceControl _ requestor => requestor.mode = .kernel || requestor.token = some true
  | .shutdown _ _ => true
  | _ => false

def Event.privileged : Event → Bool
  | .irp _ i => i.privileged
  | .elsewhere _ => true

section Runs

variable (W : Wire) (P : Primitives)

def step (w : World) : Event → Option Completion × World
  | .irp k irp =>
    let (c, w) := dispatchAny W P k irp w
    (some c, w)
  | .elsewhere change => (none, change w)

/-- The completions of a run, each with its event, and the world it ends in. -/
def run : World → List Event → List (Event × Option Completion) × World
  | w, [] => ([], w)
  | w, e :: es =>
    let (c, w) := step W P w e
    let (cs, w) := run w es
    ((e, c) :: cs, w)

end Runs

/-! ## Requests without privilege -/

section Privilege

variable {W : Wire} {P : Primitives} {k : Answers} {ctx : IoctlAuthContext} {w : World}

/-- Without privilege only the two queries are authorized. -/
theorem authorize_unprivileged (hmode : ctx.requestorMode ≠ .kernel) (htoken : ctx.requestorToken ≠ some true) :
    authorize ctx = .ok () ↔ ctx.ioctlCode = Ioctl.getProgress.code ∨ ctx.ioctlCode = Ioctl.getStatus.code := by
  rw [authorize]
  split
  · rename_i h
    exact ⟨fun _ => h, fun _ => rfl⟩
  · rename_i h
    rw [requireAdministrator, if_neg hmode, if_neg htoken]
    constructor
    · intro herr
      cases herr
    · intro hcode
      exact absurd hcode h

/-- A request without privilege is a query or is refused, and changes nothing. -/
theorem dispatchIoctl_unprivileged (W : Wire) (P : Primitives) (k : Answers) (input : Bytes) (w : World)
    {ctx : IoctlAuthContext} (hmode : ctx.requestorMode ≠ .kernel) (htoken : ctx.requestorToken ≠ some true) :
    (dispatchIoctl W P k ctx input w).2 = w ∧
      (Ioctl.ofCode ctx.ioctlCode ≠ some .getStatus → Ioctl.ofCode ctx.ioctlCode ≠ some .getProgress →
        ∃ e, (dispatchIoctl W P k ctx input w).1 = .error e) := by
  have hiff := authorize_unprivileged hmode htoken
  rw [dispatchIoctl]
  cases hauth : authorize ctx with
  | error e => exact ⟨rfl, fun _ _ => ⟨e, rfl⟩⟩
  | ok u =>
    rcases hiff.mp hauth with hcode | hcode
    · rw [hcode, Ioctl.ofCode_code]
      exact ⟨rfl, fun _ h => absurd rfl h⟩
    · rw [hcode, Ioctl.ofCode_code]
      exact ⟨rfl, fun h => absurd rfl h⟩

/-- The state behind a request is the one that the handler leaves, whatever becomes of the response. -/
theorem dispatchDeviceControl_world (params : DeviceIoControl) (requestor : Requestor) (w : World) :
    (dispatchDeviceControl W P k params requestor w).2 = params.input.elim w fun input =>
      (dispatchIoctl W P k ⟨params.ioControlCode, requestor.mode, requestor.token⟩ input w).2 := by
  rw [dispatchDeviceControl]
  cases params.input with
  | none => rfl
  | some input =>
    simp only [Option.elim]
    split
    · rename_i heq
      rw [heq]
    · rename_i heq
      rw [heq]
      repeat' split
      all_goals rfl

theorem dispatchAny_unprivileged {irp : Irp} (h : irp.privileged = false) : (dispatchAny W P k irp w).2 = w := by
  cases irp with
  | deviceControl params requestor =>
    have hboth : requestor.mode ≠ .kernel ∧ requestor.token ≠ some true := by
      simpa [Irp.privileged] using h
    rw [dispatchAny, dispatchDeviceControl_world]
    cases params.input with
    | none => rfl
    | some input => exact (dispatchIoctl_unprivileged W P k input w hboth.1 hboth.2).1
  | shutdown pauseBuilt detachBuilt => cases h
  | _ => rfl

/-- What a request without privilege gets, unless it is a query: no success and no bytes. -/
theorem deviceControl_unprivileged {params : DeviceIoControl} {requestor : Requestor}
    (h : (Irp.deviceControl params requestor).privileged = false)
    (hstatus : Ioctl.ofCode params.ioControlCode ≠ some .getStatus)
    (hprogress : Ioctl.ofCode params.ioControlCode ≠ some .getProgress) :
    (dispatchAny W P k (.deviceControl params requestor) w).1.status ≠ .success ∧
      (dispatchAny W P k (.deviceControl params requestor) w).1.information = 0 ∧
      (dispatchAny W P k (.deviceControl params requestor) w).1.systemBuffer = params.systemBuffer := by
  have hboth : requestor.mode ≠ .kernel ∧ requestor.token ≠ some true := by
    simpa [Irp.privileged] using h
  rw [dispatchAny, dispatchDeviceControl]
  cases params.input with
  | none => exact ⟨nofun, rfl, rfl⟩
  | some input =>
    have hunprivileged : ∀ ctx : IoctlAuthContext, ctx = ⟨params.ioControlCode, requestor.mode, requestor.token⟩ →
        ∃ e, (dispatchIoctl W P k ctx input w).1 = .error e := by
      rintro ctx rfl
      exact (dispatchIoctl_unprivileged W P k input w hboth.1 hboth.2).2 hstatus hprogress
    obtain ⟨e, he⟩ := hunprivileged _ rfl
    simp only
    split
    · exact ⟨nofun, rfl, rfl⟩
    · rename_i heq
      rw [heq] at he
      cases he

/-- The run without the requests that have no privilege. -/
theorem run_purged (W : Wire) (P : Primitives) (w : World) (events : List Event) :
    (run W P w events).2 = (run W P w (events.filter Event.privileged)).2 ∧
      (run W P w events).1.filter (·.1.privileged) = (run W P w (events.filter Event.privileged)).1 := by
  induction events generalizing w with
  | nil => exact ⟨rfl, rfl⟩
  | cons e es ih =>
    cases hp : e.privileged with
    | true =>
      rw [List.filter_cons_of_pos hp]
      obtain ⟨hworld, hreplies⟩ := ih (step W P w e).2
      refine ⟨hworld, ?_⟩
      simp only [run]
      rw [List.filter_cons, if_pos hp, hreplies]
    | false =>
      rw [List.filter_cons_of_neg (by simp [hp])]
      have hsame : (step W P w e).2 = w := by
        cases e with
        | irp k irp => exact dispatchAny_unprivileged hp
        | elsewhere change => cases hp
      obtain ⟨hworld, hreplies⟩ := ih w
      simp only [run]
      rw [hsame, List.filter_cons, if_neg (by simp [hp])]
      exact ⟨hworld, hreplies⟩

/-- A completion of a run is that of its event in some world on the way. -/
theorem completion_of_run {events : List Event} {irp : Irp} {c : Option Completion}
    (h : (Event.irp k irp, c) ∈ (run W P w events).1) : ∃ w', c = some (dispatchAny W P k irp w').1 := by
  induction events generalizing w with
  | nil => cases h
  | cons e es ih =>
    rcases List.mem_cons.mp h with heq | hmem
    · obtain ⟨rfl, rfl⟩ := Prod.mk.inj heq
      exact ⟨w, rfl⟩
    · exact ih hmem

/-- Requests without privilege leave no trace: the run ends as if they had not been sent, and every other request
gets the completion that it gets without them. Except for the queries of status and progress they get no success
and no bytes. -/
theorem unprivileged_leave_no_trace (W : Wire) (P : Primitives) (w : World) (events : List Event) :
    (run W P w events).2 = (run W P w (events.filter Event.privileged)).2 ∧
      (run W P w events).1.filter (·.1.privileged) = (run W P w (events.filter Event.privileged)).1 ∧
      ∀ k params requestor c, (Event.irp k (.deviceControl params requestor), c) ∈ (run W P w events).1 →
        (Irp.deviceControl params requestor).privileged = false →
        Ioctl.ofCode params.ioControlCode ≠ some .getStatus → Ioctl.ofCode params.ioControlCode ≠ some .getProgress →
          ∃ status, status ≠ .success ∧ c = some ⟨status, 0, params.systemBuffer⟩ := by
  refine ⟨?_, ?_, ?_⟩
  · exact (run_purged W P w events).1
  · exact (run_purged W P w events).2
  · intro k params requestor c hmem hp hstatus hprogress
    obtain ⟨w', rfl⟩ := completion_of_run hmem
    obtain ⟨hno, hinfo, hbuffer⟩ := deviceControl_unprivileged (W := W) (P := P) (k := k) (w := w') hp hstatus hprogress
    refine ⟨_, hno, ?_⟩
    rw [← hinfo, ← hbuffer]

end Privilege

end ControlDevice
