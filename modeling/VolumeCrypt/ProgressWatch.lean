import VolumeCrypt.Shutdown
import VolumeCrypt.SweepSchedule

/-!
# The sweep commands of the app

`encrypt` and `decrypt` of the sample app start a sweep and watch it: the SDK asks the driver for the
progress again and again, until the sweep is idle or paused. The driver serves other clients, runs
batches and does I/O meanwhile.
-/
namespace ProgressWatch

open ByteString VckTypes SectorIo SweepEngine VolumeSweep SweepSchedule DriverState Dispatch StartRequest ControlDevice
open Shutdown
open JvckMetadata (Primitives)
open JvckStore (JvckMetadataStore)

/-! ## The SDK -/

/-- The codes as the SDK spells them out. -/
def sdkCode : Ioctl → UInt32
  | .getStatus => 0x00226000
  | .getProgress => 0x0022600c
  | .listVolumes => 0x0022602c
  | .startEncrypt => 0x0022a004
  | .startDecrypt => 0x0022a008
  | .pause => 0x0022a010
  | .jvckAttach => 0x0022a014
  | .detach => 0x0022a018
  | .jvckPrepare => 0x0022a01c
  | .pauseOsVolume => 0x0022a020
  | .detachAllVolumes => 0x0022a024
  | .benchAes => 0x00226028

theorem sdkCode_eq (i : Ioctl) : sdkCode i = i.code := by
  cases i <;> decide

def stateIdle : Nat := 0

def statePaused : Nat := 3

/-- `msgpack.Marshal` and `msgpack.Unmarshal` at the types that the commands use. -/
structure Msgpack where
  volumeRequest : VolumeRequest → Except String Bytes
  empty : Bytes → Except String Unit
  progressEvent : Bytes → Except String ProgressEvent

/-- What the SDK encodes the driver decodes, and the other way round. -/
structure Msgpack.Agrees (M : Msgpack) (W : Wire) : Prop where
  request : ∀ {req b}, M.volumeRequest req = .ok b → W.volumeReq b = .ok req
  progress : ∀ {ev b}, W.progress ev = .ok b → M.progressEvent b = .ok ev

/-- NT names pass; the system is asked for those of all other volumes. -/
def toNTPath (volumeNTDevicePath : String → Except String String) (volumePath : String) : Except String String :=
  if (stripStart "\\Device\\" volumePath).isSome || (stripStart "\\??\\" volumePath).isSome ||
      (stripStart "\\DosDevices\\" volumePath).isSome then .ok volumePath
  else volumeNTDevicePath volumePath

def outLength : Nat := 65536

section Client

variable (W : Wire) (P : Primitives) (M : Msgpack)

/-- `DeviceIoControl`: the I/O manager copies the request into a buffer that both directions share. -/
def deviceIoControl (k : Answers) (requestor : Requestor) (code : UInt32) (inBuf : Bytes) (w : World) :
    Except String Bytes × World :=
  let systemBuffer := inBuf ++ List.replicate (outLength - inBuf.length) 0
  let (c, w) := dispatchAny W P k (.deviceControl ⟨code, inBuf.length, outLength, some systemBuffer⟩ requestor) w
  match c.status, c.systemBuffer with
  | .success, some buffer => (.ok (buffer.take c.information), w)
  | _, _ => (.error "DeviceIoControl failed", w)

def deviceControl {α : Type} (unmarshal : Bytes → Except String α) (k : Answers) (requestor : Requestor) (i : Ioctl)
    (req : VolumeRequest) (w : World) : Except String α × World :=
  match M.volumeRequest req with
  | .error e => (.error e, w)
  | .ok inBuf =>
    let (out, w) := deviceIoControl W P k requestor (sdkCode i) inBuf w
    (out >>= unmarshal, w)

/-- `StartEncrypt` and `StartDecrypt`. -/
def startSweep (volumeNTDevicePath : String → Except String String) (k : Answers) (requestor : Requestor)
    (v : VolumeState) (volumePath : String) (w : World) : Except String Unit × World :=
  match toNTPath volumeNTDevicePath volumePath with
  | .error e => (.error e, w)
  | .ok nt => deviceControl W P M M.empty k requestor (startIoctl v) ⟨nt⟩ w

def getProgress (k : Answers) (requestor : Requestor) (nt : String) (w : World) : Except String ProgressEvent × World :=
  deviceControl W P M M.progressEvent k requestor .getProgress ⟨nt⟩ w

end Client

/-! ## Watching -/

/-- How `WatchProgress` closes its channels. -/
inductive Ending where
  | cancelled
  | failed (e : String)
  | completed
  deriving DecidableEq, Repr

/-- The driver, the path of the requests, the events that were sent to the channel, and how it was closed. -/
structure Session where
  world : World
  nt : String
  shown : List ProgressEvent
  ended : Option Ending

inductive Turn where
  | driver (e : Later)
  | poll (k : Answers)
  | cancel

/-- `WatchProgress` up to its goroutine. -/
def watchProgress (volumeNTDevicePath : String → Except String String) (volumePath : String) (w : World) : Session :=
  match toNTPath volumeNTDevicePath volumePath with
  | .error e => ⟨w, volumePath, [], some (.failed e)⟩
  | .ok nt => ⟨w, nt, [], none⟩

section Watch

variable (W : Wire) (P : Primitives) (M : Msgpack) (requestor : Requestor)

/-- One event of the driver, or one turn of the goroutine, which ends with the first event that is idle or paused. -/
def step (s : Session) : Turn → Option Session
  | .driver e => (Shutdown.step W P s.world e).map fun world => { s with world }
  | .cancel => if s.ended = none then some { s with ended := some .cancelled } else none
  | .poll k =>
    if s.ended = none then
      match getProgress W P M k requestor s.nt s.world with
      | (.error e, world) => some { s with world, ended := some (.failed e) }
      | (.ok ev, world) =>
        let ended := if ev.state = stateIdle ∨ ev.state = statePaused then some .completed else none
        some { s with world, shown := s.shown ++ [ev], ended }
    else none

end Watch

/-! ## Requests of the SDK -/

section Requests

variable {W : Wire} {P : Primitives} {M : Msgpack} {k : Answers} {requestor : Requestor} {code : UInt32}
  {inBuf out : Bytes} {w w' : World}

theorem input_sdk (code : UInt32) (inBuf rest : Bytes) :
    DeviceIoControl.input ⟨code, inBuf.length, outLength, some (inBuf ++ rest)⟩ = some inBuf := by
  rw [DeviceIoControl.input]
  split
  · rename_i hzero
    rw [List.eq_nil_of_length_eq_zero hzero]
  · rw [Option.map_some, List.take_left]

/-- A call succeeds with the whole response, when that fits the buffer. -/
theorem deviceIoControl_ok_iff : deviceIoControl W P k requestor code inBuf w = (.ok out, w') ↔
    dispatchIoctl W P k ⟨code, requestor.mode, requestor.token⟩ inBuf w = (.ok out, w') ∧ out.length ≤ outLength := by
  unfold deviceIoControl dispatchAny dispatchDeviceControl
  simp only [input_sdk]
  generalize dispatchIoctl W P k ⟨code, requestor.mode, requestor.token⟩ inBuf w = answer
  obtain ⟨r, w₁⟩ := answer
  cases r with
  | error e => simp
  | ok response =>
    by_cases hlong : outLength < response.length
    · simp only [if_pos hlong, Prod.mk.injEq, reduceCtorEq, false_and, Except.ok.injEq, false_iff]
      rintro ⟨⟨rfl, -⟩, hle⟩
      omega
    by_cases hnil : response = []
    · simp only [if_neg hlong, if_pos hnil, List.take_zero, Prod.mk.injEq, Except.ok.injEq]
      constructor
      · rintro ⟨rfl, rfl⟩
        exact ⟨⟨hnil, rfl⟩, Nat.zero_le _⟩
      · rintro ⟨⟨rfl, rfl⟩, -⟩
        exact ⟨hnil.symm, rfl⟩
    · have htake : (copyAt (inBuf ++ List.replicate (outLength - inBuf.length) 0) 0 response).take response.length =
          response := by
        rw [copyAt]
        simp
      simp only [if_neg hlong, if_neg hnil, htake, Prod.mk.injEq, Except.ok.injEq]
      constructor
      · rintro ⟨rfl, rfl⟩
        exact ⟨⟨rfl, rfl⟩, Nat.le_of_not_lt hlong⟩
      · exact And.left

/-- The response of a request that was carried out, when it fits the buffer. -/
theorem deviceControl_of_ok {α : Type} {unmarshal : Bytes → Except String α} {i : Ioctl} {req : VolumeRequest} {x : α}
    (hreq : M.volumeRequest req = .ok inBuf)
    (hd : dispatchIoctl W P k ⟨i.code, requestor.mode, requestor.token⟩ inBuf w = (.ok out, w'))
    (hle : out.length ≤ outLength) (hx : unmarshal out = .ok x) :
    deviceControl W P M unmarshal k requestor i req w = (.ok x, w') := by
  have hio : deviceIoControl W P k requestor i.code inBuf w = (.ok out, w') := deviceIoControl_ok_iff.mpr ⟨hd, hle⟩
  rw [deviceControl, hreq, sdkCode_eq]
  simp only [hio]
  exact congrArg (·, w') hx

theorem deviceIoControl_world : (deviceIoControl W P k requestor code inBuf w).2 =
    (dispatchIoctl W P k ⟨code, requestor.mode, requestor.token⟩ inBuf w).2 := by
  have hworld := dispatchDeviceControl_world (W := W) (P := P) (k := k)
    ⟨code, inBuf.length, outLength, some (inBuf ++ List.replicate (outLength - inBuf.length) 0)⟩ requestor w
  rw [input_sdk] at hworld
  refine Eq.trans ?_ hworld
  unfold deviceIoControl dispatchAny
  simp only
  split <;> rfl

/-- The driver has carried out what the SDK has asked for, and the SDK has decoded the answer. -/
theorem deviceControl_ok {α : Type} {unmarshal : Bytes → Except String α} {i : Ioctl} {req : VolumeRequest} {x : α}
    (hM : M.Agrees W) (h : deviceControl W P M unmarshal k requestor i req w = (.ok x, w')) :
    ∃ inBuf out, W.volumeReq inBuf = .ok req ∧
      dispatchIoctl W P k ⟨i.code, requestor.mode, requestor.token⟩ inBuf w = (.ok out, w') ∧ unmarshal out = .ok x := by
  unfold deviceControl at h
  cases hreq : M.volumeRequest req with
  | error e =>
    rw [hreq] at h
    cases h
  | ok inBuf =>
    rw [hreq, sdkCode_eq] at h
    cases hio : deviceIoControl W P k requestor i.code inBuf w with
    | mk r w₁ =>
      simp only [hio] at h
      obtain ⟨hx, rfl⟩ := Prod.mk.inj h
      cases r with
      | error e => cases hx
      | ok out => exact ⟨inBuf, out, hM.request hreq, (deviceIoControl_ok_iff.mp hio).1, hx⟩

theorem handleDirection_none {v : VolumeState} {find : FindAnswers} {nt : String}
    (h : resolveVolume find nt w.state = none) :
    handleDirection P v find (.ok ⟨nt⟩) w = (.error (.notFound "volume is not attached"), w) := by
  cases v with
  | encrypt => simp only [handleDirection, handleStartEncrypt, handleStart, h]
  | decrypt => simp only [handleDirection, handleStartDecrypt, handleStart, h]

/-- A sweep that was started is that of the volume behind the path. -/
theorem startSweep_ok {names : String → Except String String} {v : VolumeState} {volumePath : String} (hM : M.Agrees W)
    (h : startSweep W P M names k requestor v volumePath w = (.ok (), w')) :
    ∃ nt id vol, toNTPath names volumePath = .ok nt ∧ resolveVolume k.find nt w.state = some (id, vol) ∧
      w' = (handleDirection P v k.find (.ok ⟨nt⟩) w).2 := by
  unfold startSweep at h
  cases hnt : toNTPath names volumePath with
  | error e =>
    rw [hnt] at h
    cases h
  | ok nt =>
    rw [hnt] at h
    obtain ⟨inBuf, out, hreq, hd, -⟩ := deviceControl_ok hM h
    rw [dispatchIoctl, Ioctl.ofCode_code] at hd
    cases hauth : authorize ⟨(startIoctl v).code, requestor.mode, requestor.token⟩ with
    | error e =>
      rw [hauth] at hd
      cases hd
    | ok u =>
      rw [hauth] at hd
      have hstart : respond (fun _ => W.emptyResp) (handleDirection P v k.find (.ok ⟨nt⟩) w) = (.ok out, w') := by
        rw [← hreq]
        cases v with
        | encrypt => exact hd
        | decrypt => exact hd
      cases hres : resolveVolume k.find nt w.state with
      | none =>
        rw [handleDirection_none hres] at hstart
        cases hstart
      | some x => exact ⟨nt, x.1, x.2, rfl, hres, (Prod.mk.inj hstart).2.symm⟩

theorem getProgress_world (nt : String) : (getProgress W P M k requestor nt w).2 = w := by
  unfold getProgress deviceControl
  cases M.volumeRequest ⟨nt⟩ with
  | error e => rfl
  | ok inBuf =>
    refine deviceIoControl_world.trans ?_
    rw [sdkCode_eq, dispatchIoctl, Ioctl.ofCode_code]
    split <;> rfl

/-- An event is that of the volume behind the path. -/
theorem getProgress_ok {nt : String} {ev : ProgressEvent} (hM : M.Agrees W)
    (h : getProgress W P M k requestor nt w = (.ok ev, w')) :
    ∃ id vol, resolveVolume k.find nt w.state = some (id, vol) ∧
      ev = ⟨vol.encryption.encryptedOffset.sector, vol.encryption.encryptedOffset.totalSectors,
        asWire vol.encryption.state, ""⟩ := by
  obtain ⟨inBuf, out, hreq, hd, hev⟩ := deviceControl_ok hM h
  rw [dispatchIoctl, Ioctl.ofCode_code] at hd
  cases hauth : authorize ⟨Ioctl.getProgress.code, requestor.mode, requestor.token⟩ with
  | error e =>
    rw [hauth] at hd
    cases hd
  | ok u =>
    rw [hauth] at hd
    have hout : handleGetProgress W k inBuf w = .ok out := (Prod.mk.inj hd).1
    rw [handleGetProgress, hreq] at hout
    cases hres : resolveVolume k.find nt w.state with
    | none =>
      simp only [bind, Except.bind, hres] at hout
      cases hout
    | some x =>
      obtain ⟨id, vol⟩ := x
      simp only [bind, Except.bind, hres] at hout
      exact ⟨id, vol, rfl, Except.ok.inj (hev.symm.trans (hM.progress hout))⟩

end Requests

/-! ## The sweep behind the events -/

/-- `o'` is seen after `o` of a sweep in direction `v`. -/
structure Follows (v : VolumeState) (o o' : EncryptedOffset) : Prop where
  total : o'.totalSectors = o.totalSectors
  toward : Toward v o.sector.toNat o'.sector.toNat

/-- The engine sweeps in direction `v`, is paused, or has come to the end. -/
def Live (v : VolumeState) (e : EncryptionEngine) : Prop :=
  e.state = sweeping v ∨ e.state = .paused ∨ e.state = .idle ∧ remaining v e.encryptedOffset = 0

/-- The volume is in memory, and its sweep in direction `v` is at `o` or has gone on from there. -/
def Ahead (v : VolumeState) (o : EncryptedOffset) (id : VolId) (w : World) : Prop :=
  ∃ a, attached w.state id = some a ∧ Live v a.encryption ∧ Follows v o a.encryption.encryptedOffset

section Engine

variable {v : VolumeState} {o o' o'' : EncryptedOffset} {e : EncryptionEngine}

theorem Follows.refl (v : VolumeState) (o : EncryptedOffset) : Follows v o o := ⟨rfl, Toward.refl v _⟩

theorem Follows.trans (h : Follows v o o') (h' : Follows v o' o'') : Follows v o o'' := by
  refine ⟨h'.total.trans h.total, ?_⟩
  have h₁ := h.toward
  have h₂ := h'.toward
  cases v with
  | encrypt => exact Nat.le_trans h₁ h₂
  | decrypt => exact Nat.le_trans h₂ h₁

/-- A sweep at its end stays there. -/
theorem Follows.remaining_eq_zero (h : Follows v o o') (hzero : remaining v o = 0) : remaining v o' = 0 := by
  have htoward := h.toward
  have htotal := congrArg UInt64.toNat h.total
  cases v with
  | encrypt =>
    simp only [remaining, Toward] at hzero htoward ⊢
    omega
  | decrypt =>
    simp only [remaining, Toward] at hzero htoward ⊢
    omega

theorem isFullyEncrypted_iff (o : EncryptedOffset) : o.isFullyEncrypted = true ↔ remaining .encrypt o = 0 := by
  simp only [EncryptedOffset.isFullyEncrypted, decide_eq_true_eq, ge_iff_le, UInt64.le_iff_toNat_le, remaining]
  omega

theorem Live.pause (h : Live v e) : Live v e.pause := by
  obtain ⟨offsetSector, encryptedOffset, state⟩ := e
  rcases h with hs | hs | ⟨hs, hzero⟩
  · refine .inr (.inl ?_)
    simp only at hs
    rw [hs, EncryptionEngine.pause]
    cases v <;> rfl
  · refine .inr (.inl ?_)
    simp only at hs
    rw [hs]
    rfl
  · refine .inr (.inr ?_)
    simp only at hs
    rw [hs]
    exact ⟨rfl, hzero⟩

theorem live_start (v : VolumeState) (e : EncryptionEngine) : Live v { e with state := e.startState v } := by
  cases v with
  | encrypt =>
    by_cases hfull : e.encryptedOffset.isFullyEncrypted = true
    · exact .inr (.inr ⟨if_pos hfull, (isFullyEncrypted_iff _).mp hfull⟩)
    · exact .inl (if_neg hfull)
  | decrypt =>
    by_cases hpos : e.encryptedOffset.sector > 0
    · exact .inl (if_pos hpos)
    · refine .inr (.inr ⟨if_neg hpos, ?_⟩)
      have hzero : ¬ 0 < e.encryptedOffset.sector.toNat := fun h => hpos (UInt64.lt_iff_toNat_lt.mpr h)
      exact Nat.eq_zero_of_not_pos hzero

/-- The engine after a batch: as before, or at the new boundary, where it may be finished. -/
theorem batchStep_engine {σ : Type} (S : EncryptedOffsetStore σ) (area : Bytes → Nat → UInt64 → Bytes)
    (finished : EncryptedOffset → Bool) (start count boundary : UInt64) (e : EncryptionEngine) (st : σ) (d : Device) :
    (EncryptionEngine.batchStep S area finished start count boundary e st d).2.1 = e ∨
      (EncryptionEngine.batchStep S area finished start count boundary e st d).2.1 = e.setBoundary boundary ∨
      finished (e.setBoundary boundary).encryptedOffset = true ∧
        (EncryptionEngine.batchStep S area finished start count boundary e st d).2.1 =
          { e.setBoundary boundary with state := .idle } := by
  unfold EncryptionEngine.batchStep
  simp only
  cases readSectors d (e.offsetSector + start) (count.toNat * d.sectorSize.toNat % 2 ^ 64) with
  | error err => exact .inl rfl
  | ok buf =>
    simp only
    generalize writeSectors d (e.offsetSector + start) (area buf d.sectorSize.toNat start) = written
    obtain ⟨r, d₁⟩ := written
    cases r with
    | error err => exact .inl rfl
    | ok u =>
      refine .inr ?_
      simp only [EncryptionEngine.persist]
      generalize S.store st d₁ (e.setBoundary boundary).encryptedOffset = stored
      obtain ⟨r, st₁, d₂⟩ := stored
      cases r with
      | error err => exact .inl rfl
      | ok u =>
        simp only
        generalize S.flush st₁ d₂ = flushed
        obtain ⟨r, st₂, d₃⟩ := flushed
        cases r with
        | error err => exact .inl rfl
        | ok u =>
          simp only
          by_cases hfin : finished (e.setBoundary boundary).encryptedOffset = true
          · exact .inr ⟨hfin, by rw [if_pos hfin]⟩
          · exact .inl (by rw [if_neg hfin])

/-- A batch that moves the boundary onward, and finishes at the end only. -/
theorem batchStep_live {σ : Type} (S : EncryptedOffsetStore σ) (area : Bytes → Nat → UInt64 → Bytes)
    {finished : EncryptedOffset → Bool} (start count : UInt64) {boundary : UInt64} (st : σ) (d : Device)
    (hs : e.state = sweeping v) (hmoved : Follows v e.encryptedOffset (e.setBoundary boundary).encryptedOffset)
    (hfin : finished (e.setBoundary boundary).encryptedOffset = true →
      remaining v (e.setBoundary boundary).encryptedOffset = 0) :
    Live v (EncryptionEngine.batchStep S area finished start count boundary e st d).2.1 ∧
      Follows v e.encryptedOffset
        (EncryptionEngine.batchStep S area finished start count boundary e st d).2.1.encryptedOffset := by
  rcases batchStep_engine S area finished start count boundary e st d with he | he | ⟨hdone, he⟩
  · rw [he]
    exact ⟨.inl hs, .refl v _⟩
  · rw [he]
    exact ⟨.inl hs, hmoved⟩
  · rw [he]
    exact ⟨.inr (.inr ⟨rfl, hfin hdone⟩), hmoved⟩

theorem progressStep_live {σ : Type} (S : EncryptedOffsetStore σ) (cipher : CipherTraits.VolumeCipher)
    (batchSectors : UInt64) (st : σ) (d : Device) (h : Live v e) :
    Live v (EncryptionEngine.progressStep S cipher batchSectors e st d).2.1 ∧
      Follows v e.encryptedOffset
        (EncryptionEngine.progressStep S cipher batchSectors e st d).2.1.encryptedOffset := by
  rcases id h with hs | hs | ⟨hs, -⟩
  · cases v with
    | encrypt =>
      rw [EncryptionEngine.progressStep, hs]
      simp only [sweeping, EncryptionEngine.encryptStep]
      by_cases hfull : e.encryptedOffset.isFullyEncrypted = true
      · rw [if_pos hfull]
        exact ⟨.inr (.inr ⟨rfl, (isFullyEncrypted_iff _).mp hfull⟩), .refl _ _⟩
      · rw [if_neg hfull]
        have hpos : remaining .encrypt e.encryptedOffset ≠ 0 := fun h => hfull ((isFullyEncrypted_iff _).mpr h)
        simp only [remaining] at hpos
        have hle : e.encryptedOffset.sector.toNat ≤ e.encryptedOffset.totalSectors.toNat := by omega
        obtain ⟨-, hsum⟩ := toNat_encryptBatch batchSectors hle
        refine batchStep_live S _ _ _ st d hs ⟨rfl, ?_⟩ fun hdone => (isFullyEncrypted_iff _).mp hdone
        simp only [Toward, EncryptionEngine.setBoundary]
        omega
    | decrypt =>
      rw [EncryptionEngine.progressStep, hs]
      simp only [sweeping, EncryptionEngine.decryptStep]
      by_cases hzero : e.encryptedOffset.sector = 0
      · rw [if_pos hzero]
        exact ⟨.inr (.inr ⟨rfl, by simp only [remaining, hzero]; rfl⟩), .refl _ _⟩
      · rw [if_neg hzero]
        obtain ⟨-, hsub⟩ := toNat_decryptBatch e.encryptedOffset.sector batchSectors
        refine batchStep_live S _ _ _ st d hs ⟨rfl, ?_⟩ ?_
        · simp only [Toward, EncryptionEngine.setBoundary]
          omega
        · intro hdone
          exact congrArg UInt64.toNat (eq_of_beq hdone)
  · rw [EncryptionEngine.progressStep, hs]
    exact ⟨h, .refl v _⟩
  · rw [EncryptionEngine.progressStep, hs]
    exact ⟨h, .refl v _⟩

theorem sweepStep_live {σ : Type} (S : EncryptedOffsetStore σ) (batchSectors : UInt64) (a : AttachedVolume σ) (d : Device)
    (h : Live v a.encryption) :
    Live v (a.sweepStep S batchSectors d).2.1.encryption ∧
      Follows v a.encryption.encryptedOffset (a.sweepStep S batchSectors d).2.1.encryption.encryptedOffset := by
  have hsame : a.acquired.encryption = a.encryption := by
    rw [AttachedVolume.acquired]
    split <;> rfl
  rw [AttachedVolume.sweepStep]
  cases a.nextCipher with
  | none =>
    simp only [hsame]
    exact ⟨h, .refl v _⟩
  | some cipher =>
    have hstep := progressStep_live S cipher batchSectors a.offsetStore d h
    simp only
    split <;> exact hstep

end Engine

/-! ## What the driver does meanwhile -/

section Driver

variable {W : Wire} {P : Primitives} {k : Answers} {v : VolumeState} {o : EncryptedOffset} {id : VolId} {w w' : World}

theorem Ahead.of_attached (h : Ahead v o id w) (hw : attached w'.state id = attached w.state id) : Ahead v o id w' := by
  obtain ⟨a, ha, hlive, hfollows⟩ := h
  exact ⟨a, hw.trans ha, hlive, hfollows⟩

theorem closed_ahead (v : VolumeState) (o : EncryptedOffset) (id : VolId) : Closed (Ahead v o id) := by
  refine ⟨?_, ?_⟩
  · rintro w w' _ ⟨a, ha, hlive, hfollows⟩ hkeeps -
    exact ⟨a, hkeeps.kept ha, hlive, hfollows⟩
  · rintro w ⟨a, ha, hlive, hfollows⟩ i
    have hpause : a.encryption.pause.encryptedOffset = a.encryption.encryptedOffset := by
      rw [EncryptionEngine.pause]
      split <;> rfl
    by_cases hi : id = i
    · refine ⟨{ a with encryption := a.encryption.pause }, ?_, hlive.pause, ?_⟩
      · rw [pauseVolume, attached_modifyAttached, if_pos hi, ← hi, ha, Option.map_some]
      · simp only [hpause]
        exact hfollows
    · refine ⟨a, ?_, hlive, hfollows⟩
      rw [pauseVolume, attached_modifyAttached, if_neg hi]
      exact ha

theorem Ahead.sweep (h : Ahead v o id w) (i : VolId) (batchSectors : UInt64) :
    Ahead v o id (sweepVolume P i batchSectors w) := by
  by_cases hi : id = i
  · obtain ⟨a, ha, hlive, hfollows⟩ := h
    obtain ⟨x, hx, rfl⟩ := Option.map_eq_some_iff.mp ha
    obtain ⟨hlive', hfollows'⟩ := sweepStep_live (offsetStore (jvckOffsetStore P)) batchSectors x.toAttachedVolume
      (w.device id) hlive
    refine ⟨_, ?_, hlive', hfollows.trans hfollows'⟩
    rw [← hi, sweepVolume, hx]
    simp only
    rw [attached_modifyAttached, if_pos rfl, ha, Option.map_some]
  · exact h.of_attached (attached_sweepVolume_of_ne hi batchSectors w)

/-- A volume whose sweep was started is at its own boundary. -/
theorem ahead_started {find : FindAnswers} {req : VolumeRequest} {x : Volume JvckMetadataStore}
    (hres : resolveVolume find req.volumePath w.state = some (id, x)) :
    Ahead v x.encryption.encryptedOffset id (handleDirection P v find (.ok req) w).2 := by
  have hx : w.state.volumes id = some x := volumes_of_resolve hres
  have hatt : attached w.state id = some x.toAttachedVolume := congrArg (Option.map _) hx
  have hstart {start : EncryptedOffsetStore (OffsetStore JvckMetadataStore) → EncryptionEngine →
      OffsetStore JvckMetadataStore → Device → EncryptionEngine × OffsetStore JvckMetadataStore × Device}
      (hs : ∀ S st d, (start S x.encryption st d).1 = { x.encryption with state := x.encryption.startState v }) :
      Ahead v x.encryption.encryptedOffset id (handleStart P start find (.ok req) w).2 := by
    simp only [handleStart, hres]
    have hengine := hs (offsetStore (jvckOffsetStore P)) x.offsetStore (w.device id)
    generalize start (offsetStore (jvckOffsetStore P)) x.encryption x.offsetStore (w.device id) = r at hengine ⊢
    obtain ⟨e, st, d⟩ := r
    obtain rfl : e = _ := hengine
    refine ⟨{ x.toAttachedVolume with
      encryption := { x.encryption with state := x.encryption.startState v }, offsetStore := st }, ?_,
      live_start v x.encryption, .refl v _⟩
    rw [attached_modifyAttached, if_pos rfl, hatt, Option.map_some]
  cases v with
  | encrypt => exact hstart fun _ _ _ => rfl
  | decrypt => exact hstart fun _ _ _ => rfl

/-- A START request against direction `v` that is carried out for the volume. -/
def Reverses (W : Wire) (v : VolumeState) (id : VolId) (k : Answers) (ctx : IoctlAuthContext) (input : Bytes)
    (w : World) : Prop :=
  authorize ctx = .ok () ∧ (∃ v', v' ≠ v ∧ Ioctl.ofCode ctx.ioctlCode = some (startIoctl v')) ∧
    ∃ req x, W.volumeReq input = .ok req ∧ resolveVolume k.find req.volumePath w.state = some (id, x)

/-- A START request in the same direction leaves the sweep where it is. -/
theorem Ahead.starts (h : Ahead v o id w) {ctx : IoctlAuthContext} {input : Bytes}
    (hs : ¬ Reverses W v id k ctx input w) : StartsKeep W P (Ahead v o id) k ctx input w := by
  intro hauth v' hcode
  by_cases hres : ∃ req x, W.volumeReq input = .ok req ∧ resolveVolume k.find req.volumePath w.state = some (id, x)
  · obtain ⟨req, x, hreq, hx⟩ := hres
    have hv : v' = v := by
      by_contra hne
      exact hs ⟨hauth, ⟨v', hne, hcode⟩, req, x, hreq, hx⟩
    obtain ⟨a, ha, -, hfollows⟩ := h
    obtain ⟨y, hy, rfl⟩ := Option.map_eq_some_iff.mp ha
    obtain rfl := Option.some.inj ((volumes_of_resolve hx).symm.trans hy)
    obtain ⟨b, hb, hlive, hfollows'⟩ := ahead_started (P := P) (v := v) hx
    rw [hv, hreq]
    exact ⟨b, hb, hlive, hfollows.trans hfollows'⟩
  · refine h.of_attached (attached_handleDirection_of_ne ?_)
    intro req x hreq hx
    exact hres ⟨req, x, hreq, hx⟩

end Driver

/-! ## Whole sessions -/

def offsetOf (ev : ProgressEvent) : EncryptedOffset := ⟨ev.encryptedSector, ev.totalSectors⟩

/-- The boundary at the start and those that were shown since. -/
def trail (o : EncryptedOffset) (s : Session) : List EncryptedOffset := o :: s.shown.map offsetOf

/-- Nobody reverses the sweep of the volume, and the path stands for no other. -/
def Minds (W : Wire) (v : VolumeState) (id : VolId) (s : Session) : Turn → Prop
  | .driver (.irp k (.deviceControl params requestor)) => ∀ input, params.input = some input →
    ¬ Reverses W v id k ⟨params.ioControlCode, requestor.mode, requestor.token⟩ input s.world
  | .poll k => ∀ i x, resolveVolume k.find s.nt s.world.state = some (i, x) → i = id
  | _ => True

/-- The volume is ahead of what was shown, and the last event says why the session is over. -/
structure Watching (v : VolumeState) (id : VolId) (o : EncryptedOffset) (s : Session) : Prop where
  ahead : ∀ o' ∈ trail o s, Ahead v o' id s.world
  ordered : (trail o s).Pairwise (Follows v)
  ended : s.ended = some .completed → ∃ ev, s.shown.getLast? = some ev ∧
    (ev.state = statePaused ∨ ev.state = stateIdle ∧ remaining v (offsetOf ev) = 0)

section Sessions

variable {W : Wire} {P : Primitives} {M : Msgpack} {requestor : Requestor} {v : VolumeState} {id : VolId}
  {o : EncryptedOffset} {s s' : Session}

theorem Watching.driver (h : Watching v id o s) {e : Later} (hm : Minds W v id s (.driver e)) {w' : World}
    (he : Shutdown.step W P s.world e = some w') : Watching v id o { s with world := w' } := by
  refine ⟨?_, h.ordered, h.ended⟩
  intro o' ho'
  refine (closed_ahead v o' id).step (fun h i batchSectors => h.sweep i batchSectors) (fun h _ => h) (h.ahead o' ho') ?_ he
  rintro k params requestor input rfl hin
  exact (h.ahead o' ho').starts (hm input hin)

/-- What a poll shows is the sweep at that moment. -/
theorem Watching.shows (h : Watching v id o s) {x : Volume JvckMetadataStore} (hx : s.world.state.volumes id = some x)
    {ended : Option Ending} {ev : ProgressEvent} (hoffset : offsetOf ev = x.encryption.encryptedOffset)
    (hstate : ev.state = asWire x.encryption.state)
    (hended : ended = some .completed → ev.state = stateIdle ∨ ev.state = statePaused) :
    Watching v id o { s with shown := s.shown ++ [ev], ended } := by
  have htrail : trail o { s with shown := s.shown ++ [ev], ended } = trail o s ++ [offsetOf ev] := by
    simp [trail]
  have hatt : attached s.world.state id = some x.toAttachedVolume := congrArg (Option.map _) hx
  have hnow (o' : EncryptedOffset) (ho' : o' ∈ trail o s) : Live v x.encryption ∧ Follows v o' (offsetOf ev) := by
    obtain ⟨a, ha, hlive, hfollows⟩ := h.ahead o' ho'
    obtain rfl := Option.some.inj (hatt.symm.trans ha)
    rw [hoffset]
    exact ⟨hlive, hfollows⟩
  obtain ⟨hlive, -⟩ := hnow o List.mem_cons_self
  refine ⟨?_, ?_, ?_⟩
  · rw [htrail]
    intro o' ho'
    rcases List.mem_append.mp ho' with hold | hnew
    · exact h.ahead o' hold
    · rw [List.mem_singleton.mp hnew, hoffset]
      exact ⟨x.toAttachedVolume, hatt, hlive, .refl v _⟩
  · rw [htrail, List.pairwise_append]
    refine ⟨h.ordered, List.pairwise_singleton _ _, ?_⟩
    intro o' ho' o'' ho''
    rw [List.mem_singleton.mp ho'']
    exact (hnow o' ho').2
  · intro he
    refine ⟨ev, List.getLast?_concat, ?_⟩
    rcases hended he with hidle | hpaused
    · rw [hidle, hoffset]
      refine .inr ⟨rfl, ?_⟩
      rw [hstate] at hidle
      rcases hlive with hs | hs | ⟨-, hzero⟩
      · rw [hs] at hidle
        cases v <;> cases hidle
      · rw [hs] at hidle
        cases hidle
      · exact hzero
    · exact .inl hpaused

theorem step_watching (hM : M.Agrees W) (h : Watching v id o s) {t : Turn} (hm : Minds W v id s t)
    (hs : step W P M requestor s t = some s') : Watching v id o s' := by
  cases t with
  | driver e =>
    obtain ⟨w', he, rfl⟩ := Option.map_eq_some_iff.mp hs
    exact h.driver hm he
  | cancel =>
    rw [step] at hs
    split at hs
    · obtain rfl := Option.some.inj hs
      exact ⟨h.ahead, h.ordered, fun he => by cases he⟩
    · cases hs
  | poll k =>
    rw [step] at hs
    split at hs
    · have hworld : (getProgress W P M k requestor s.nt s.world).2 = s.world := getProgress_world s.nt
      cases hget : getProgress W P M k requestor s.nt s.world with
      | mk r w' =>
        rw [hget] at hworld hs
        obtain rfl : w' = s.world := hworld
        cases r with
        | error e =>
          obtain rfl := Option.some.inj hs
          exact ⟨h.ahead, h.ordered, fun he => by cases he⟩
        | ok ev =>
          obtain rfl := Option.some.inj hs
          obtain ⟨i, x, hres, rfl⟩ := getProgress_ok hM hget
          obtain rfl := hm i x hres
          refine h.shows (volumes_of_resolve hres) rfl rfl ?_
          intro he
          by_contra hgoes
          rw [if_neg hgoes] at he
          cases he
    · cases hs

theorem watching_start {find : FindAnswers} {nt : String} {x : Volume JvckMetadataStore} {w : World}
    (hres : resolveVolume find nt w.state = some (id, x)) (names : String → Except String String) (volumePath : String) :
    Watching v id x.encryption.encryptedOffset
      (watchProgress names volumePath (handleDirection P v find (.ok ⟨nt⟩) w).2) := by
  have hahead : Ahead v x.encryption.encryptedOffset id (handleDirection P v find (.ok ⟨nt⟩) w).2 := ahead_started hres
  have hnone (s : Session) (hw : s.world = (handleDirection P v find (.ok ⟨nt⟩) w).2) (hshown : s.shown = [])
      (hended : s.ended ≠ some .completed) : Watching v id x.encryption.encryptedOffset s := by
    have htrail : trail x.encryption.encryptedOffset s = [x.encryption.encryptedOffset] := by
      rw [trail, hshown]
      rfl
    refine ⟨?_, ?_, fun he => absurd he hended⟩
    · rw [htrail, hw]
      intro o' ho'
      rw [List.mem_singleton.mp ho']
      exact hahead
    · rw [htrail]
      exact List.pairwise_singleton _ _
  rw [watchProgress]
  cases toNTPath names volumePath with
  | error e => exact hnone _ rfl rfl (by simp)
  | ok nt => exact hnone _ rfl rfl (by simp)

/-- A sweep command that has got its sweep started watches that sweep. Whatever the driver and its other clients do
meanwhile, as long as nobody reverses the sweep and the path stands for the same volume, the boundaries shown go one
way from the one at the start, out of the same number of sectors. The command completes only with a pause, or with a
volume that has nothing left to sweep, and then has nothing left for good. -/
theorem watch_follows_sweep {names : String → Except String String} {k : Answers} {volumePath : String} {w w₁ : World}
    (hM : M.Agrees W) (hstart : startSweep W P M names k requestor v volumePath w = (.ok (), w₁)) :
    ∃ nt id x, toNTPath names volumePath = .ok nt ∧ resolveVolume k.find nt w.state = some (id, x) ∧
      ∀ names' turns s', StepRun.Along (step W P M requestor) (Minds W v id) (watchProgress names' volumePath w₁) turns →
        StepRun.run (step W P M requestor) (watchProgress names' volumePath w₁) turns = some s' →
          (trail x.encryption.encryptedOffset s').Pairwise (Follows v) ∧
          (s'.ended = some .completed → ∃ ev, s'.shown.getLast? = some ev ∧
            (ev.state = statePaused ∨ ev.state = stateIdle ∧ ∃ a, attached s'.world.state id = some a ∧
              remaining v a.encryption.encryptedOffset = 0)) := by
  obtain ⟨nt, id, x, hnt, hres, rfl⟩ := startSweep_ok hM hstart
  refine ⟨nt, id, x, hnt, hres, ?_⟩
  intro names' turns s' halong hrun
  have hfin : Watching v id x.encryption.encryptedOffset s' := StepRun.run_simulates_along
    (R := fun s (_ : Unit) => Watching v id x.encryption.encryptedOffset s) (t := ()) (fun _ _ => ())
    (fun h hm hs => step_watching hM h hm hs) (watching_start hres names' volumePath) halong hrun
  refine ⟨hfin.ordered, ?_⟩
  intro hended
  obtain ⟨ev, hlast, hwhy⟩ := hfin.ended hended
  refine ⟨ev, hlast, hwhy.imp_right ?_⟩
  rintro ⟨hidle, hzero⟩
  have hmem : offsetOf ev ∈ trail x.encryption.encryptedOffset s' :=
    List.mem_cons_of_mem _ (List.mem_map_of_mem (List.mem_of_getLast? hlast))
  obtain ⟨a, ha, -, hfollows⟩ := hfin.ahead _ hmem
  exact ⟨hidle, a, ha, hfollows.remaining_eq_zero hzero⟩

end Sessions

/-! ## A sweep that another client pauses -/

section Sample

def nt : String := "\\Device\\HarddiskVolume4"

/-- The sample volume under its NT name. -/
def ntWorld : World where
  state := ((State.loaded JvckMetadataStore none).insert { StartRequest.sampleVolume with volumePath := nt }).2
  device := fun _ => JvckRecovery.sampleDevice 5 .encrypt

/-- A map with one entry, in MessagePack. -/
def ntRequest : Bytes := [0x81, 0xab] ++ "volume_path".toUTF8.data.toList ++ [0xb7] ++ nt.toUTF8.data.toList

/-- Boundary 5 of 512 sectors; the empty error is left out. -/
def eventBytes (state : UInt8) : Bytes :=
  [0x83, 0xb0] ++ "encrypted_sector".toUTF8.data.toList ++ [0x05, 0xad] ++ "total_sectors".toUTF8.data.toList ++
    [0xcd, 0x02, 0x00, 0xa5] ++ "state".toUTF8.data.toList ++ [state]

/-- The driver's side of the requests and responses of the session. -/
def sampleWire : Wire where
  prepareReq := fun _ => .error (.msgpackDecode "")
  attachReq := fun _ => .error (.msgpackDecode "")
  volumeReq := fun b => if b = ntRequest then .ok ⟨nt⟩ else .error (.msgpackDecode "")
  prepareResp := fun _ => .error (.msgpackEncode "")
  attachResp := fun _ => .error (.msgpackEncode "")
  emptyResp := .ok [0x80]
  status := fun _ => .error (.msgpackEncode "")
  progress := fun ev =>
    if ev.encryptedSector = 5 ∧ ev.totalSectors = 512 ∧ ev.error = "" ∧ (ev.state = 1 ∨ ev.state = 3) then
      .ok (eventBytes (UInt8.ofNat ev.state))
    else .error (.msgpackEncode "")
  list := fun _ => .error (.msgpackEncode "")

def sampleMsgpack : Msgpack where
  volumeRequest := fun req => if req.volumePath = nt then .ok ntRequest else .error ""
  empty := fun b => if b = [0x80] then .ok () else .error ""
  progressEvent := fun b =>
    if b = eventBytes 1 then .ok ⟨5, 512, 1, ""⟩ else if b = eventBytes 3 then .ok ⟨5, 512, 3, ""⟩ else .error ""

theorem sampleMsgpack_agrees : sampleMsgpack.Agrees sampleWire := by
  refine ⟨?_, ?_⟩
  · rintro ⟨path⟩ b h
    simp only [sampleMsgpack] at h
    split at h
    · rename_i hpath
      obtain rfl := Except.ok.inj h
      simp only [sampleWire, hpath, if_pos]
    · cases h
  · rintro ⟨sector, total, state, error⟩ b h
    simp only [sampleWire] at h
    split at h
    · rename_i hev
      obtain ⟨rfl, rfl, rfl, hstate⟩ := hev
      obtain rfl := Except.ok.inj h
      have hne : eventBytes 3 ≠ eventBytes 1 := by
        intro he
        have := (List.append_inj he rfl).2
        cases this
      rcases hstate with rfl | rfl
      · simp [sampleMsgpack]
      · simp [sampleMsgpack, hne]
    · cases h

def sampleAnswers : Answers where
  find := noAnswers
  prepare := ⟨noAnswers, .error (.io ""), (0, 0), .error (.io ""), .error (.io ""), fun _ => none, (0, 0), 0,
    .error (.io ""), .error (.io ""), .error (.io "")⟩
  attach := ⟨.error (.io ""), .error (.io ""), .error (.io "")⟩
  detach := ⟨false, false⟩
  detachAll := fun _ => ⟨false, false⟩
  bench := fun _ => .error (.io "")

def administrator : Requestor := ⟨.user, some true⟩

/-- The other client asks for a pause. -/
def pauseIrp : Irp :=
  .deviceControl ⟨Ioctl.pause.code, ntRequest.length, outLength,
    some (ntRequest ++ List.replicate (outLength - ntRequest.length) 0)⟩ administrator

/-- The volume of the sample in the state of the engine. -/
structure Shows (w : World) (state : EngineState) : Prop where
  entry : w.state.entries[nt]? = some 0
  volume : ∃ a, attached w.state 0 = some a ∧ a.encryption = ⟨0, ⟨5, 512⟩, state⟩

variable {P : Primitives} {w : World} {state : EngineState}

theorem Shows.resolves (h : Shows w state) :
    ∃ x, resolveVolume noAnswers nt w.state = some (0, x) ∧ x.encryption = ⟨0, ⟨5, 512⟩, state⟩ := by
  obtain ⟨a, ha, hengine⟩ := h.volume
  obtain ⟨x, hx, rfl⟩ := Option.map_eq_some_iff.mp ha
  refine ⟨x, ?_, hengine⟩
  rw [resolveVolume, get_eq_some_iff.mpr ⟨h.entry, hx⟩]
  rfl

theorem shows_ntWorld : Shows ntWorld .idle := by
  refine ⟨?_, StartRequest.sampleVolume.toAttachedVolume, rfl, rfl⟩
  change ((State.loaded JvckMetadataStore none).entries.insert nt 0)[nt]? = _
  exact Std.ExtTreeMap.getElem?_insert_self ..

theorem sampleMsgpack_request : sampleMsgpack.volumeRequest ⟨nt⟩ = .ok ntRequest := by
  simp only [sampleMsgpack, if_pos]

theorem sampleWire_request : sampleWire.volumeReq ntRequest = .ok ⟨nt⟩ :=
  sampleMsgpack_agrees.request sampleMsgpack_request

theorem Shows.started (h : Shows w .idle) : Shows (handleStartEncrypt P noAnswers (.ok ⟨nt⟩) w).2 .encrypting := by
  obtain ⟨x, hres, hengine⟩ := h.resolves
  have hatt : attached w.state 0 = some x.toAttachedVolume := congrArg (Option.map _) (volumes_of_resolve hres)
  refine ⟨?_, ?_⟩
  · simp only [handleStartEncrypt, handleStart, hres]
    exact h.entry
  · simp only [handleStartEncrypt, handleStart, hres, attached_modifyAttached, if_true, hatt, Option.map_some,
      Option.some.injEq, exists_eq_left', hengine]
    rfl

theorem Shows.paused (h : Shows w .encrypting) : Shows (pauseVolume w 0) .paused := by
  obtain ⟨a, ha, hengine⟩ := h.volume
  refine ⟨h.entry, ?_⟩
  simp only [pauseVolume, attached_modifyAttached, if_true, ha, Option.map_some, Option.some.injEq, exists_eq_left',
    hengine]
  rfl

theorem Shows.start (h : Shows w .idle) : ∃ w₁, Shows w₁ .encrypting ∧
    startSweep sampleWire P sampleMsgpack .ok sampleAnswers administrator .encrypt nt w = (.ok (), w₁) := by
  obtain ⟨x, hres, -⟩ := h.resolves
  have hnt : toNTPath .ok nt = .ok nt := ite_self _
  have hauth : authorize ⟨(startIoctl .encrypt).code, .user, some true⟩ = .ok () := rfl
  refine ⟨(handleStartEncrypt P noAnswers (.ok ⟨nt⟩) w).2, h.started, ?_⟩
  rw [startSweep, hnt]
  have hd : dispatchIoctl sampleWire P sampleAnswers ⟨(startIoctl .encrypt).code, .user, some true⟩ ntRequest w =
      (.ok [0x80], (handleStartEncrypt P noAnswers (.ok ⟨nt⟩) w).2) := by
    rw [dispatchIoctl, hauth, Ioctl.ofCode_code]
    change respond _ (handleStartEncrypt P noAnswers (sampleWire.volumeReq ntRequest) w) = _
    rw [sampleWire_request]
    simp only [handleStartEncrypt, handleStart, hres]
    rfl
  exact deviceControl_of_ok sampleMsgpack_request hd (by decide) (by simp only [sampleMsgpack, if_pos])

theorem Shows.pauses (h : Shows w .encrypting) :
    Shows (dispatchAny sampleWire P sampleAnswers pauseIrp w).2 .paused := by
  obtain ⟨x, hres, -⟩ := h.resolves
  have hauth : authorize ⟨Ioctl.pause.code, .user, some true⟩ = .ok () := rfl
  have hworld : (dispatchAny sampleWire P sampleAnswers pauseIrp w).2 = pauseVolume w 0 := by
    refine (dispatchDeviceControl_world ..).trans ?_
    rw [input_sdk, Option.elim]
    change (dispatchIoctl _ _ _ ⟨Ioctl.pause.code, .user, some true⟩ _ _).2 = _
    rw [dispatchIoctl, hauth, Ioctl.ofCode_code]
    change (handlePause sampleAnswers (sampleWire.volumeReq ntRequest) w).2 = _
    rw [sampleWire_request, handlePause]
    simp only [sampleAnswers, hres]
  rw [hworld]
  exact h.paused

theorem Shows.polled (h : Shows w state) (hstate : state = .encrypting ∨ state = .paused) :
    getProgress sampleWire P sampleMsgpack sampleAnswers administrator nt w =
      (.ok ⟨5, 512, asWire state, ""⟩, w) := by
  obtain ⟨x, hres, hengine⟩ := h.resolves
  have hauth : authorize ⟨Ioctl.getProgress.code, .user, some true⟩ = .ok () := rfl
  have hencode : sampleWire.progress ⟨5, 512, asWire state, ""⟩ = .ok (eventBytes (UInt8.ofNat (asWire state))) := by
    rcases hstate with rfl | rfl
    · simp [sampleWire, asWire]
    · simp [sampleWire, asWire]
  have hd : dispatchIoctl sampleWire P sampleAnswers ⟨Ioctl.getProgress.code, .user, some true⟩ ntRequest w =
      (.ok (eventBytes (UInt8.ofNat (asWire state))), w) := by
    rw [dispatchIoctl, hauth, Ioctl.ofCode_code]
    change (handleGetProgress sampleWire sampleAnswers ntRequest w, w) = _
    rw [handleGetProgress, sampleWire_request]
    simp only [bind, Except.bind, sampleAnswers, hres, hengine, hencode]
  have hlength : (eventBytes (UInt8.ofNat (asWire state))).length ≤ outLength := by
    have heq : ∀ state, (eventBytes state).length = (eventBytes 0).length := fun _ => rfl
    rw [heq]
    decide
  exact deviceControl_of_ok sampleMsgpack_request hd hlength (sampleMsgpack_agrees.progress hencode)

/-- The command starts the sweep and shows it; another client pauses it, and the command shows that and completes. -/
theorem watch_follows_sweep_paused :
    ∃ w₁ s', startSweep sampleWire JvckMetadata.standard sampleMsgpack .ok sampleAnswers administrator .encrypt nt
        ntWorld = (.ok (), w₁) ∧
      StepRun.run (step sampleWire JvckMetadata.standard sampleMsgpack administrator) (watchProgress .ok nt w₁)
        [.poll sampleAnswers, .driver (.irp sampleAnswers pauseIrp), .poll sampleAnswers] = some s' ∧
      s'.shown = [⟨5, 512, 1, ""⟩, ⟨5, 512, 3, ""⟩] ∧ s'.ended = some .completed ∧
      (trail ⟨5, 512⟩ s').Pairwise (Follows .encrypt) := by
  obtain ⟨w₁, hw₁, hstart⟩ := shows_ntWorld.start (P := JvckMetadata.standard)
  have hw₂ := hw₁.pauses (P := JvckMetadata.standard)
  have hpoll₁ := hw₁.polled (P := JvckMetadata.standard) (.inl rfl)
  have hpoll₂ := hw₂.polled (P := JvckMetadata.standard) (.inr rfl)
  have hwatch : watchProgress .ok nt w₁ = ⟨w₁, nt, [], none⟩ := by
    rw [watchProgress, show toNTPath .ok nt = .ok nt from ite_self _]
  have hstep₁ : step sampleWire JvckMetadata.standard sampleMsgpack administrator ⟨w₁, nt, [], none⟩
      (.poll sampleAnswers) = some ⟨w₁, nt, [⟨5, 512, 1, ""⟩], none⟩ := by
    simp only [step, if_true, hpoll₁]
    rfl
  have hstep₂ : step sampleWire JvckMetadata.standard sampleMsgpack administrator ⟨w₁, nt, [⟨5, 512, 1, ""⟩], none⟩
      (.driver (.irp sampleAnswers pauseIrp)) =
      some ⟨(dispatchAny sampleWire JvckMetadata.standard sampleAnswers pauseIrp w₁).2, nt, [⟨5, 512, 1, ""⟩], none⟩ :=
    rfl
  have hstep₃ : step sampleWire JvckMetadata.standard sampleMsgpack administrator
      ⟨(dispatchAny sampleWire JvckMetadata.standard sampleAnswers pauseIrp w₁).2, nt, [⟨5, 512, 1, ""⟩], none⟩
      (.poll sampleAnswers) =
      some ⟨(dispatchAny sampleWire JvckMetadata.standard sampleAnswers pauseIrp w₁).2, nt,
        [⟨5, 512, 1, ""⟩, ⟨5, 512, 3, ""⟩], some .completed⟩ := by
    simp only [step, if_true, hpoll₂]
    rfl
  have hrun : StepRun.run (step sampleWire JvckMetadata.standard sampleMsgpack administrator) (watchProgress .ok nt w₁)
      [.poll sampleAnswers, .driver (.irp sampleAnswers pauseIrp), .poll sampleAnswers] =
      some ⟨(dispatchAny sampleWire JvckMetadata.standard sampleAnswers pauseIrp w₁).2, nt,
        [⟨5, 512, 1, ""⟩, ⟨5, 512, 3, ""⟩], some .completed⟩ := by
    rw [hwatch, StepRun.run_cons_eq_some]
    refine ⟨_, hstep₁, ?_⟩
    rw [StepRun.run_cons_eq_some]
    refine ⟨_, hstep₂, ?_⟩
    rw [StepRun.run_cons_eq_some]
    exact ⟨_, hstep₃, rfl⟩
  refine ⟨w₁, _, hstart, hrun, rfl, rfl, ?_⟩
  obtain ⟨nt', id, x, hnt, hres, hruns⟩ := watch_follows_sweep sampleMsgpack_agrees hstart
  obtain rfl : nt = nt' := Except.ok.inj ((ite_self _).symm.trans hnt)
  obtain ⟨x', hres', hengine⟩ := shows_ntWorld.resolves
  obtain ⟨rfl, rfl⟩ := Prod.mk.inj (Option.some.inj (hres'.symm.trans hres))
  have hzero {w : World} {state : EngineState} (h : Shows w state) (i : VolId) (y : Volume JvckMetadataStore)
      (hi : resolveVolume noAnswers nt w.state = some (i, y)) : i = 0 := by
    obtain ⟨y', hy', -⟩ := h.resolves
    exact (Prod.mk.inj (Option.some.inj (hi.symm.trans hy'))).1
  rw [hengine] at hruns
  refine (hruns .ok _ _ ?_ hrun).1
  rw [hwatch]
  refine .cons hstep₁ (hzero hw₁) (.cons hstep₂ ?_ (.cons hstep₃ (hzero hw₂) trivial))
  rintro input - ⟨-, ⟨v', -, hcode⟩, -⟩
  rw [Ioctl.ofCode_code] at hcode
  cases v' <;> cases hcode

end Sample

end ProgressWatch
