import VolumeCrypt.Shutdown
import VolumeCrypt.VolumeService

/-!
# The driver with all its volumes

Every filter that is bound to a volume with a cipher has a thread, which serves that volume.
Meanwhile clients send requests to the control device, devices arrive, the handover volume is
mounted, and the threads of other filters serve their own volumes. None of this is seen by the
applications of a volume: it stays the plain disk that it is for its own thread.
-/
namespace DriverService

open ByteString VckTypes SectorIo CipherTraits JvckLayout SweepEngine VolumeSweep DriverState Dispatch StartRequest
open ControlDevice Shutdown VolumeService
open Transparency (Env Mounted)
open JvckMetadata (Primitives)
open JvckStore (JvckMetadataStore)

/-! ## Threads -/

/-- What belongs to the thread of a filter; `vol` is the volume that it works on since the top of its loop. -/
structure Worker where
  vol : VolId
  thread : VolumeThread.State VolumeService.Request
  burst : Option VolumeCipher
  log : List (VolumeThread.Event VolumeService.Request)
  answers : List (VolumeThread.IrpEntry VolumeService.Request × DataPath.Completion)
  /-- The requests that came to the filter since the thread was started. -/
  arrived : List Sent

def Worker.start (created : Bool) (vol : VolId) : Worker := ⟨vol, VolumeThread.start created, none, [], [], []⟩

structure Driver where
  world : World
  workers : FilterId → Worker

/-- A volume with the store of the provider. -/
def provided (a : AttachedVolume (OffsetStore JvckMetadataStore)) : Option (AttachedVolume JvckMetadataStore) :=
  match a.offsetStore with
  | .provided st => some { a with offsetStore := st }
  | .dummy _ => none

def lift (v : AttachedVolume JvckMetadataStore) : AttachedVolume (OffsetStore JvckMetadataStore) :=
  { v with offsetStore := .provided v.offsetStore }

namespace Driver

def serviceOf (k : Worker) (volume : AttachedVolume JvckMetadataStore) (device : Device) : Service :=
  ⟨k.thread, volume, device, k.burst, k.log, k.answers⟩

/-- The thread of a filter as a service of the volume. -/
def service (D : Driver) (f : FilterId) (id : VolId) : Option Service :=
  ((attached D.world.state id).bind provided).map fun volume => serviceOf (D.workers f) volume (D.world.device id)

/-- What the thread of a filter has done on the volume. -/
def put (D : Driver) (f : FilterId) (id : VolId) (s : Service) : Driver where
  world := ⟨D.world.state.modifyAttached id fun _ => lift s.volume, Function.update D.world.device id s.device⟩
  workers := Function.update D.workers f ⟨id, s.thread, s.burst, s.log, s.answers, (D.workers f).arrived⟩

/-- A filter that had no thread and is bound to a volume with a cipher gets one. -/
def control (D : Driver) (created : Bool) (world : World) : Driver where
  world := world
  workers := fun f =>
    match vthread D.world.state f, vthread world.state f with
    | none, some id => .start created id
    | _, _ => D.workers f

end Driver

inductive Event where
  | irp (k : Answers) (irp : ControlDevice.Irp) (created : Bool)
  | addDevice (k : AddDeviceAnswers)
  | mount (k : HandoverAnswers JvckMetadataStore) (f : FilterId) (created : Bool)
  | arrive (f : FilterId) (requestorMode : UInt8) (id : Nat) (sent : DataPath.Irp) (isWrite : Bool)
  | thread (f : FilterId) (ev : VolumeThread.Event VolumeService.Request)
  /-- What others do to the devices. -/
  | elsewhere (change : VolId → Device → Device)

section Steps

variable (W : Wire) (P : Primitives)

/-- A read or write at a filter that has a thread. -/
def arrive (D : Driver) (f : FilterId) (requestorMode : UInt8) (id : Nat) (sent : DataPath.Irp) (isWrite : Bool) :
    Option Driver := do
  let ext ← D.world.state.filters f
  let vol ← ext.volume
  let _ ← ext.vthread
  let s ← D.service f vol
  let s ← s.arrive requestorMode id sent isWrite
  let worker := { D.workers f with
    thread := s.thread, log := s.log, arrived := (D.workers f).arrived ++ [⟨id, sent, isWrite⟩] }
  some { D with workers := Function.update D.workers f worker }

/-- The volume that the thread goes on with: `current` is read at the top of the loop only. -/
def volumeOf (current vol : VolId) : VolumeThread.Event VolumeService.Request → VolId
  | .loadShutdown => current
  | _ => vol

def threadStep (D : Driver) (f : FilterId) (ev : VolumeThread.Event VolumeService.Request) : Option Driver := do
  let current ← vthread D.world.state f
  let vol := volumeOf current (D.workers f).vol ev
  let s ← D.service f vol
  let s ← s.threadStep P ev
  some (D.put f vol s)

def step (D : Driver) : Event → Option Driver
  | .irp k irp created => some (D.control created (dispatchAny W P k irp D.world).2)
  | .addDevice k => some (D.control false { D.world with state := Dispatch.addDevice k D.world.state })
  | .mount k f created =>
    some (D.control created { D.world with
      state := tryMountHandoverVolume (jvckOffsetStore P) (D.world.device D.world.state.nextVolume) k f D.world.state })
  | .arrive f requestorMode id sent isWrite => arrive D f requestorMode id sent isWrite
  | .thread f ev => threadStep P D f ev
  | .elsewhere change => some { D with world := { D.world with device := fun id => change id (D.world.device id) } }

end Steps

/-! ## What the control device does to a volume that is served -/

section Control

variable {W : Wire} {P : Primitives} {w w' : World} {id : VolId} {f : FilterId}

/-- A START request changes engine, store and device of the volume it is for, and nothing else. -/
theorem handleDirection_frame (v : VolumeState) (find : FindAnswers) (input : VckResult VolumeRequest) (w : World)
    (id : VolId) :
    (handleDirection P v find input w).2.state.filters = w.state.filters ∧
      (handleDirection P v find input w).2.state.nextVolume = w.state.nextVolume ∧
      ((∀ req x, input = .ok req → resolveVolume find req.volumePath w.state ≠ some (id, x)) →
        (handleDirection P v find input w).2.device id = w.device id) := by
  have hstart (start : EncryptedOffsetStore (OffsetStore JvckMetadataStore) → EncryptionEngine →
      OffsetStore JvckMetadataStore → Device → EncryptionEngine × OffsetStore JvckMetadataStore × Device) :
      (handleStart P start find input w).2.state.filters = w.state.filters ∧
        (handleStart P start find input w).2.state.nextVolume = w.state.nextVolume ∧
        ((∀ req x, input = .ok req → resolveVolume find req.volumePath w.state ≠ some (id, x)) →
          (handleStart P start find input w).2.device id = w.device id) := by
    unfold handleStart
    split
    · exact ⟨rfl, rfl, fun _ => rfl⟩
    · rename_i req
      split
      · exact ⟨rfl, rfl, fun _ => rfl⟩
      · rename_i i x hres
        refine ⟨rfl, rfl, ?_⟩
        intro hs
        have hne : id ≠ i := by
          rintro rfl
          exact hs req x rfl hres
        exact Function.update_of_ne hne ..
  cases v with
  | encrypt => exact hstart _
  | decrypt => exact hstart _

/-- `start_encrypt` or `start_decrypt` of the service. -/
def turnTo (P : Primitives) (s : Service) : VolumeState → Service
  | .encrypt => s.turn P EncryptionEngine.startEncrypt
  | .decrypt => s.turn P EncryptionEngine.startDecrypt

/-- The handler of a START request does to the volume in the registry what the engine does to the one of the service. -/
theorem handleDirection_turns {v : VolumeState} {find : FindAnswers} {req : VolumeRequest}
    {x : Volume JvckMetadataStore} {volume : AttachedVolume JvckMetadataStore} (k : Worker)
    (hres : resolveVolume find req.volumePath w.state = some (id, x)) (hx : x.toAttachedVolume = lift volume) :
    attached (handleDirection P v find (.ok req) w).2.state id =
        some (lift (turnTo P (Driver.serviceOf k volume (w.device id)) v).volume) ∧
      (handleDirection P v find (.ok req) w).2.device id =
        (turnTo P (Driver.serviceOf k volume (w.device id)) v).device := by
  have hatt : attached w.state id = some (lift volume) := by
    rw [attached, volumes_of_resolve hres, Option.map_some, hx]
  have hencryption : x.encryption = volume.encryption := congrArg AttachedVolume.encryption hx
  have hstore : x.offsetStore = .provided volume.offsetStore := congrArg AttachedVolume.offsetStore hx
  cases v with
  | encrypt =>
    simp only [handleDirection, handleStartEncrypt, handleStart, hres, attached_modifyAttached, if_true, hatt,
      Option.map_some, Function.update_self, hencryption, hstore]
    exact ⟨rfl, rfl⟩
  | decrypt =>
    simp only [handleDirection, handleStartDecrypt, handleStart, hres, attached_modifyAttached, if_true, hatt,
      Option.map_some, Function.update_self, hencryption, hstore]
    exact ⟨rfl, rfl⟩

end Control

/-! ## One filter for each volume -/

/-- The thread of the filter works on the volume, or will do so at the top of its loop. -/
def Uses (D : Driver) (f : FilterId) (id : VolId) : Prop :=
  ∃ current, vthread D.world.state f = some current ∧ (current = id ∨ (D.workers f).vol = id)

/-- The threads use volumes that exist, no two of them the same. -/
structure Apart (D : Driver) : Prop where
  allocated : ∀ {f id}, Uses D f id → id < D.world.state.nextVolume
  apart : ∀ {f f' id}, Uses D f id → Uses D f' id → f = f'

/-- Threads have got new volumes only, each of them one of its own. -/
structure Grown (w₀ w : World) : Prop where
  next : w₀.state.nextVolume ≤ w.state.nextVolume
  threads : ∀ {f id}, vthread w.state f = some id →
    vthread w₀.state f = some id ∨ w₀.state.nextVolume ≤ id ∧ id < w.state.nextVolume
  unique : ∀ {f f' id}, w₀.state.nextVolume ≤ id → vthread w.state f = some id → vthread w.state f' = some id → f = f'

section Threads

variable {W : Wire} {P : Primitives} {w₀ w w' : World} {D D' : Driver}

theorem Grown.of_filters (h : Grown w₀ w) (hfilters : w'.state.filters = w.state.filters)
    (hnext : w'.state.nextVolume = w.state.nextVolume) : Grown w₀ w' := by
  have hthread (f : FilterId) : vthread w'.state f = vthread w.state f := by rw [vthread, hfilters, vthread]
  refine ⟨?_, ?_, ?_⟩
  · rw [hnext]
    exact h.next
  · intro f id
    rw [hthread, hnext]
    exact h.threads
  · intro f f' id
    rw [hthread, hthread]
    exact h.unique

theorem closed_grown (hw₀ : ∀ {f id}, vthread w₀.state f = some id → id < w₀.state.nextVolume) : Closed (Grown w₀) := by
  refine ⟨?_, fun h _ => h.of_filters rfl rfl⟩
  intro w w' g h hkeeps _
  have hlt {f id} (hthread : vthread w.state f = some id) : id < w.state.nextVolume := by
    rcases h.threads hthread with hold | ⟨-, hlt⟩
    · exact (hw₀ hold).trans_le h.next
    · exact hlt
  refine ⟨h.next.trans hkeeps.next, ?_, ?_⟩
  · intro f id hthread
    rcases hkeeps.threads hthread with hold | ⟨-, hle, hlt'⟩
    · exact (h.threads hold).imp_right fun ⟨hle, hlt'⟩ => ⟨hle, hlt'.trans_le hkeeps.next⟩
    · exact .inr ⟨h.next.trans hle, hlt'⟩
  · intro f f' id hle hf hf'
    rcases hkeeps.threads hf with hold | ⟨hg, hnew, -⟩
    · rcases hkeeps.threads hf' with hold' | ⟨-, hnew', -⟩
      · exact h.unique hle hold hold'
      · exact absurd (hlt hold) hnew'.not_gt
    · rcases hkeeps.threads hf' with hold' | ⟨hg', -, -⟩
      · exact absurd (hlt hold') hnew.not_gt
      · exact hg.trans hg'.symm

theorem Grown.refl (w : World) (hw : ∀ {f id}, vthread w.state f = some id → id < w.state.nextVolume) : Grown w w :=
  ⟨le_rfl, .inl, fun hle hf _ => absurd (hw hf) hle.not_gt⟩

theorem Apart.threads_lt (h : Apart D) {f : FilterId} {id : VolId} (hthread : vthread D.world.state f = some id) :
    id < D.world.state.nextVolume :=
  h.allocated ⟨id, hthread, .inl rfl⟩

theorem Apart.control (h : Apart D) (created : Bool) (hw : Grown D.world w) : Apart (D.control created w) := by
  -- A thread uses what it has got now, or what it used before.
  have huses {f id} (hu : Uses (D.control created w) f id) : vthread w.state f = some id ∨ Uses D f id := by
    obtain ⟨current, hcurrent, rfl | hvol⟩ := hu
    · exact .inl hcurrent
    · simp only [Driver.control] at hcurrent hvol
      cases hold : vthread D.world.state f with
      | none =>
        rw [hold, hcurrent] at hvol
        obtain rfl : current = id := hvol
        exact .inl hcurrent
      | some old =>
        rw [hold] at hvol
        exact .inr ⟨old, hold, .inr hvol⟩
  have hold {f id} (hthread : vthread w.state f = some id) (hlt : id < D.world.state.nextVolume) : Uses D f id := by
    rcases hw.threads hthread with hold | ⟨hle, -⟩
    · exact ⟨id, hold, .inl rfl⟩
    · exact absurd hlt hle.not_gt
  refine ⟨?_, ?_⟩
  · intro f id hu
    rcases huses hu with hthread | hu
    · rcases hw.threads hthread with hthread | ⟨-, hlt⟩
      · exact (h.threads_lt hthread).trans_le hw.next
      · exact hlt
    · exact (h.allocated hu).trans_le hw.next
  · intro f f' id hu hu'
    rcases huses hu with hthread | hu
    · rcases huses hu' with hthread' | hu'
      · by_cases hlt : id < D.world.state.nextVolume
        · exact h.apart (hold hthread hlt) (hold hthread' hlt)
        · exact hw.unique (Nat.le_of_not_lt hlt) hthread hthread'
      · exact h.apart (hold hthread (h.allocated hu')) hu'
    · rcases huses hu' with hthread' | hu'
      · exact h.apart hu (hold hthread' (h.allocated hu))
      · exact h.apart hu hu'

/-- No thread uses more than before. -/
theorem Apart.of_uses (h : Apart D) (hnext : D'.world.state.nextVolume = D.world.state.nextVolume)
    (huses : ∀ {f id}, Uses D' f id → Uses D f id) : Apart D' := by
  refine ⟨?_, fun hu hu' => h.apart (huses hu) (huses hu')⟩
  intro f id hu
  rw [hnext]
  exact h.allocated (huses hu)

theorem Apart.step {ev : Event} (h : Apart D) (hs : step W P D ev = some D') : Apart D' := by
  have hgrown : Grown D.world D.world := .refl _ fun hthread => h.threads_lt hthread
  have hclosed : Closed (Grown D.world) := closed_grown fun hthread => h.threads_lt hthread
  cases ev with
  | irp k irp created =>
    obtain rfl := Option.some.inj hs
    refine h.control created (hclosed.irp hgrown ?_)
    intro params requestor input _ _ _ v _
    obtain ⟨hfilters, hnext, -⟩ := handleDirection_frame (P := P) v k.find (W.volumeReq input) D.world 0
    exact hgrown.of_filters hfilters hnext
  | addDevice k =>
    obtain rfl := Option.some.inj hs
    exact h.control false (hclosed.keeps (g := 0) hgrown (keeps_addDevice ..) rfl)
  | mount k f created =>
    obtain rfl := Option.some.inj hs
    exact h.control created (hclosed.keeps hgrown (keeps_mount _ _ _ _ le_rfl) rfl)
  | arrive f requestorMode reqId sent isWrite =>
    unfold DriverService.step arrive at hs
    obtain ⟨ext, -, hs⟩ := Option.bind_eq_some_iff.mp hs
    obtain ⟨vol, -, hs⟩ := Option.bind_eq_some_iff.mp hs
    obtain ⟨current, -, hs⟩ := Option.bind_eq_some_iff.mp hs
    obtain ⟨s, -, hs⟩ := Option.bind_eq_some_iff.mp hs
    obtain ⟨s', -, hs⟩ := Option.bind_eq_some_iff.mp hs
    obtain rfl := Option.some.inj hs
    refine h.of_uses rfl ?_
    rintro f' id ⟨current', hcurrent', hor⟩
    refine ⟨current', hcurrent', hor.imp_right ?_⟩
    by_cases hf : f' = f
    · simp only [hf, Function.update_self]
      exact fun hvol => hvol
    · simp only [Function.update_of_ne hf]
      exact fun hvol => hvol
  | thread f ev =>
    unfold DriverService.step threadStep at hs
    obtain ⟨current, hcurrent, hs⟩ := Option.bind_eq_some_iff.mp hs
    obtain ⟨s, -, hs⟩ := Option.bind_eq_some_iff.mp hs
    obtain ⟨s', -, hs⟩ := Option.bind_eq_some_iff.mp hs
    obtain rfl := Option.some.inj hs
    refine h.of_uses rfl ?_
    rintro f' id ⟨current', hcurrent', hor⟩
    change vthread D.world.state f' = some current' at hcurrent'
    rcases hor with rfl | hvol
    · exact ⟨current', hcurrent', .inl rfl⟩
    · simp only [Driver.put] at hvol
      by_cases hf : f' = f
      · rw [hf, Function.update_self] at hvol
        rw [hf]
        refine ⟨current, hcurrent, ?_⟩
        cases ev with
        | loadShutdown => exact .inl hvol
        | _ => exact .inr hvol
      · rw [Function.update_of_ne hf] at hvol
        exact ⟨current', hcurrent', .inr hvol⟩
  | elsewhere change =>
    obtain rfl := Option.some.inj hs
    exact h.of_uses rfl fun hu => hu

end Threads

/-! ## The volume of one filter -/

/-- Filter and thread are bound to the volume. -/
def Bound (f : FilterId) (id : VolId) (D : Driver) : Prop :=
  ∃ lower, D.world.state.filters f = some ⟨lower, some id, some id⟩

theorem Bound.uses {f : FilterId} {id : VolId} {D : Driver} (h : Bound f id D) :
    vthread D.world.state f = some id ∧ Uses D f id := by
  obtain ⟨lower, hf⟩ := h
  have hthread : vthread D.world.state f = some id := by
    rw [vthread, hf]
    rfl
  exact ⟨hthread, id, hthread, .inl rfl⟩

section Volume

variable {E : Env} {L : Layout} {g : Geometry} {cipher : VolumeCipher} {created : Bool} {d₀ : Device}
  {disk : Nat → Bytes} {W : Wire} {f : FilterId} {id : VolId} {D D' : Driver}

/-- An event of the service that brings no request. -/
theorem linear_request {s s' : Service} {arrived : List Sent} (ev : VolumeService.Event) (hw : Writable L d₀)
    (h : Linear E L g cipher created d₀ disk s arrived) (hsent : ev.sent = none)
    (hs : s.step E.primitives ev = some s') : Linear E L g cipher created d₀ disk s' arrived := by
  have hnext := h.step hw (fun r hr => by rw [hsent] at hr; cases hr) hs
  rwa [hsent, Option.toList_none, List.append_nil] at hnext

/-- The worker serves the volume as the plain disk. -/
def Serves (E : Env) (L : Layout) (g : Geometry) (cipher : VolumeCipher) (created : Bool) (d₀ : Device)
    (disk : Nat → Bytes) (k : Worker) (id : VolId) (w : World) : Prop :=
  ∃ volume, attached w.state id = some (lift volume) ∧
    Linear E L g cipher created d₀ disk (Driver.serviceOf k volume (w.device id)) k.arrived

theorem closed_serves (hw : Writable L d₀) (k : Worker) : Closed (Serves E L g cipher created d₀ disk k id) := by
  refine ⟨?_, ?_⟩
  · rintro w w' _ ⟨volume, hatt, hlinear⟩ hkeeps hdevice
    exact ⟨volume, hkeeps.kept hatt, by rw [hdevice]; exact hlinear⟩
  · rintro w ⟨volume, hatt, hlinear⟩ i
    by_cases hi : id = i
    · refine ⟨{ volume with encryption := volume.encryption.pause }, ?_, ?_⟩
      · rw [pauseVolume, attached_modifyAttached, if_pos hi, ← hi, hatt]
        rfl
      · exact linear_request .pause hw hlinear rfl rfl
    · refine ⟨volume, ?_, hlinear⟩
      rw [pauseVolume, attached_modifyAttached, if_neg hi]
      exact hatt

/-- START requests turn the sweep of the volume they are for. -/
theorem Serves.starts {w : World} {k : Worker} {answers : Answers} {ctx : IoctlAuthContext} {input : Bytes}
    (hw : Writable L d₀) (h : Serves E L g cipher created d₀ disk k id w) :
    StartsKeep W E.primitives (Serves E L g cipher created d₀ disk k id) answers ctx input w := by
  obtain ⟨volume, hatt, hlinear⟩ := h
  intro _ v _
  obtain ⟨-, -, hdevice⟩ := handleDirection_frame (P := E.primitives) v answers.find (W.volumeReq input) w id
  by_cases hres : ∃ req x, W.volumeReq input = .ok req ∧ resolveVolume answers.find req.volumePath w.state = some (id, x)
  · obtain ⟨req, x, hreq, hx⟩ := hres
    have hlift : x.toAttachedVolume = lift volume := by
      rw [attached, volumes_of_resolve hx, Option.map_some] at hatt
      exact Option.some.inj hatt
    obtain ⟨hatt', hdevice'⟩ := handleDirection_turns (P := E.primitives) (v := v) k hx hlift
    rw [hreq]
    refine ⟨_, hatt', ?_⟩
    rw [hdevice']
    cases v with
    | encrypt => exact linear_request .startEncrypt hw hlinear rfl rfl
    | decrypt => exact linear_request .startDecrypt hw hlinear rfl rfl
  · have hnone : ∀ req x, W.volumeReq input = .ok req →
        resolveVolume answers.find req.volumePath w.state ≠ some (id, x) := by
      intro req x hreq hx
      exact hres ⟨req, x, hreq, hx⟩
    refine ⟨volume, (attached_handleDirection_of_ne hnone).trans hatt, ?_⟩
    rw [hdevice hnone]
    exact hlinear

/-- What holds of the filter `f` and its volume in every state of a run. -/
structure Holds (E : Env) (L : Layout) (g : Geometry) (cipher : VolumeCipher) (created : Bool) (d₀ : Device)
    (disk : Nat → Bytes) (f : FilterId) (id : VolId) (D : Driver) : Prop where
  serves : Serves E L g cipher created d₀ disk (D.workers f) id D.world
  vol : (D.workers f).vol = id

/-- Requests on the control device, arrivals of devices and mounts. -/
theorem Holds.control {w : World} (h : Holds E L g cipher created d₀ disk f id D) (hb : Bound f id D) (created' : Bool)
    (hw : Serves E L g cipher created d₀ disk (D.workers f) id w) :
    Holds E L g cipher created d₀ disk f id (D.control created' w) := by
  have hworker : (D.control created' w).workers f = D.workers f := by
    simp only [Driver.control, hb.uses.1]
  refine ⟨?_, ?_⟩
  · rw [hworker]
    exact hw
  · rw [hworker]
    exact h.vol

/-- Another thread works on another volume. -/
theorem Holds.put {f' : FilterId} {id' : VolId} {s : Service} (h : Holds E L g cipher created d₀ disk f id D)
    (hf : f' ≠ f) (hid : id' ≠ id) : Holds E L g cipher created d₀ disk f id (D.put f' id' s) := by
  have hworker : (D.put f' id' s).workers f = D.workers f := Function.update_of_ne hf.symm ..
  have hdevice : (D.put f' id' s).world.device id = D.world.device id := Function.update_of_ne hid.symm ..
  obtain ⟨volume, hatt, hlinear⟩ := h.serves
  refine ⟨⟨volume, ?_, ?_⟩, ?_⟩
  · simp only [Driver.put]
    rw [attached_modifyAttached, if_neg hid.symm]
    exact hatt
  · rw [hworker, hdevice]
    exact hlinear
  · rw [hworker]
    exact h.vol

theorem service_eq (h : Serves E L g cipher created d₀ disk (D.workers f) id D.world) :
    ∃ s, D.service f id = some s ∧ Linear E L g cipher created d₀ disk s (D.workers f).arrived := by
  obtain ⟨volume, hatt, hlinear⟩ := h
  refine ⟨_, ?_, hlinear⟩
  rw [Driver.service, hatt]
  rfl

/-- The thread of the filter itself goes on. -/
theorem Holds.put_self {s : Service} (h : Holds E L g cipher created d₀ disk f id D)
    (hs : Linear E L g cipher created d₀ disk s (D.workers f).arrived) :
    Holds E L g cipher created d₀ disk f id (D.put f id s) := by
  obtain ⟨volume, hatt, -⟩ := h.serves
  have hworker : (D.put f id s).workers f = ⟨id, s.thread, s.burst, s.log, s.answers, (D.workers f).arrived⟩ :=
    Function.update_self ..
  have hdevice : (D.put f id s).world.device id = s.device := Function.update_self ..
  refine ⟨⟨s.volume, ?_, ?_⟩, ?_⟩
  · simp only [Driver.put]
    rw [attached_modifyAttached, if_pos rfl, hatt, Option.map_some]
  · rw [hworker, hdevice]
    exact hs
  · rw [hworker]

theorem Holds.thread {f' : FilterId} {ev : VolumeThread.Event VolumeService.Request} (hw : Writable L d₀)
    (h : Holds E L g cipher created d₀ disk f id D) (hapart : Apart D) (hb : Bound f id D)
    (hs : threadStep E.primitives D f' ev = some D') : Holds E L g cipher created d₀ disk f id D' := by
  unfold threadStep at hs
  obtain ⟨current, hcurrent, hs⟩ := Option.bind_eq_some_iff.mp hs
  obtain ⟨s, hservice, hs⟩ := Option.bind_eq_some_iff.mp hs
  obtain ⟨s', hstep, hs⟩ := Option.bind_eq_some_iff.mp hs
  obtain rfl := Option.some.inj hs
  by_cases hf : f' = f
  · rw [hf] at hcurrent hservice ⊢
    obtain rfl := Option.some.inj (hb.uses.1.symm.trans hcurrent)
    have hvol : volumeOf id (D.workers f).vol ev = id := by
      rw [h.vol]
      cases ev <;> rfl
    rw [hvol] at hservice ⊢
    obtain ⟨t, ht, hlinear⟩ := service_eq h.serves
    obtain rfl := Option.some.inj (ht.symm.trans hservice)
    exact h.put_self (linear_request (.thread ev) hw hlinear rfl hstep)
  · refine h.put hf ?_
    intro hid
    have huses : Uses D f' id := by
      refine ⟨current, hcurrent, ?_⟩
      cases ev with
      | loadShutdown => exact .inl hid
      | _ => exact .inr hid
    exact hf (hapart.apart huses hb.uses.2)

/-- `handle_filter_irp` touches the queue only. -/
theorem arrive_keeps {s s' : Service} {requestorMode : UInt8} {reqId : Nat} {sent : DataPath.Irp} {isWrite : Bool}
    (hs : s.arrive requestorMode reqId sent isWrite = some s') : s' = { s with thread := s'.thread, log := s'.log } := by
  rw [Service.arrive] at hs
  split at hs
  · obtain ⟨t, -, rfl⟩ := advance_eq_some.mp hs
    rfl
  · obtain rfl := Option.some.inj hs
    rfl
  · cases hs

theorem Holds.arrive {f' : FilterId} {requestorMode : UInt8} {reqId : Nat} {sent : DataPath.Irp} {isWrite : Bool}
    (h : Holds E L g cipher created d₀ disk f id D) (hb : Bound f id D) (hfit : f' = f → Fits g sent)
    (hs : arrive D f' requestorMode reqId sent isWrite = some D') : Holds E L g cipher created d₀ disk f id D' := by
  unfold DriverService.arrive at hs
  obtain ⟨ext, hext, hs⟩ := Option.bind_eq_some_iff.mp hs
  obtain ⟨vol, hvol, hs⟩ := Option.bind_eq_some_iff.mp hs
  obtain ⟨current, hcurrent, hs⟩ := Option.bind_eq_some_iff.mp hs
  obtain ⟨s, hservice, hs⟩ := Option.bind_eq_some_iff.mp hs
  obtain ⟨s', hstep, hs⟩ := Option.bind_eq_some_iff.mp hs
  obtain rfl := Option.some.inj hs
  by_cases hf : f' = f
  · subst hf
    obtain ⟨lower, hlower⟩ := hb
    obtain rfl := Option.some.inj (hlower.symm.trans hext)
    obtain rfl := Option.some.inj hvol
    obtain ⟨volume, hatt, hlinear⟩ := h.serves
    rw [Driver.service, hatt] at hservice
    obtain rfl := Option.some.inj hservice
    have hnext := hlinear.arrive (hfit rfl) hstep
    rw [arrive_keeps hstep] at hnext
    refine ⟨⟨volume, hatt, ?_⟩, ?_⟩
    · simp only [Function.update_self]
      exact hnext
    · simp only [Function.update_self]
      exact h.vol
  · refine ⟨?_, ?_⟩
    · simp only [Function.update_of_ne (Ne.symm hf)]
      exact h.serves
    · simp only [Function.update_of_ne (Ne.symm hf)]
      exact h.vol

/-- The filter stays bound to the volume, its applications send whole sectors of the data region, and nobody else
writes to the device. -/
def Spares (f : FilterId) (id : VolId) (g : Geometry) (D : Driver) (ev : Event) : Prop :=
  Bound f id D ∧
    match ev with
    | .arrive f' _ _ sent _ => f' = f → Fits g sent
    | .elsewhere change => ∀ d, change id d = d
    | _ => True

theorem Holds.step {ev : Event} (hw : Writable L d₀) (h : Holds E L g cipher created d₀ disk f id D) (hapart : Apart D)
    (hspares : Spares f id g D ev) (hs : step W E.primitives D ev = some D') :
    Holds E L g cipher created d₀ disk f id D' := by
  obtain ⟨hb, hev⟩ := hspares
  cases ev with
  | irp k irp created' =>
    obtain rfl := Option.some.inj hs
    refine h.control hb created' ((closed_serves hw _).irp h.serves ?_)
    intro params requestor input _ _
    exact h.serves.starts hw
  | addDevice k =>
    obtain rfl := Option.some.inj hs
    exact h.control hb false ((closed_serves hw _).keeps (g := 0) h.serves (keeps_addDevice ..) rfl)
  | mount k f' created' =>
    obtain rfl := Option.some.inj hs
    exact h.control hb created' ((closed_serves hw _).keeps h.serves (keeps_mount _ _ _ _ le_rfl) rfl)
  | arrive f' requestorMode reqId sent isWrite => exact h.arrive hb hev hs
  | thread f' ev => exact h.thread hw hapart hb hs
  | elsewhere change =>
    obtain rfl := Option.some.inj hs
    obtain ⟨volume, hatt, hlinear⟩ := h.serves
    refine ⟨⟨volume, hatt, ?_⟩, h.vol⟩
    simp only
    rw [hev]
    exact hlinear

end Volume

/-! ## A write and a read on the OS volume -/

section Sample

open VolumeService (writeEntry readEntry firstWrite firstRead)
open Transparency (headerEnv headerDevice headerDevice_fresh headerStore headerVolume headerPlain oneHeader flipCipher)

variable {W : Wire} {P : Primitives} {f : FilterId} {id : VolId} {g : Geometry} {s s' : Service} {D : Driver}

/-- The thread of the filter is at the state `s` of the service of its volume. -/
structure At (f : FilterId) (id : VolId) (s : Service) (D : Driver) : Prop where
  bound : Bound f id D
  vol : (D.workers f).vol = id
  volume : attached D.world.state id = some (lift s.volume)
  service : s = Driver.serviceOf (D.workers f) s.volume (D.world.device id)

theorem At.service_eq_some (h : At f id s D) : D.service f id = some s := by
  rw [Driver.service, h.volume, h.service]
  rfl

/-- The events of the service that are not requests on the control device. -/
def Event.of (f : FilterId) : VolumeService.Event → Option Event
  | .arrive requestorMode reqId sent isWrite => some (.arrive f requestorMode reqId sent isWrite)
  | .thread ev => some (.thread f ev)
  | _ => none

/-- What the service of the volume does, the filter and its thread do. -/
theorem At.step {ev : VolumeService.Event} {ev' : Event} (h : At f id s D) (hof : Event.of f ev = some ev')
    (hs : s.step P ev = some s') : ∃ D', step W P D ev' = some D' ∧ At f id s' D' := by
  obtain ⟨lower, hf⟩ := h.bound
  have hthread := h.bound.uses.1
  cases ev with
  | arrive requestorMode reqId sent isWrite =>
    obtain rfl := Option.some.inj hof
    change s.arrive requestorMode reqId sent isWrite = some s' at hs
    have hkeeps := arrive_keeps hs
    let worker : Worker := { D.workers f with
      thread := s'.thread, log := s'.log, arrived := (D.workers f).arrived ++ [⟨reqId, sent, isWrite⟩] }
    refine ⟨{ D with workers := Function.update D.workers f worker }, ?_, h.bound, ?_, ?_, ?_⟩
    · simp only [DriverService.step, DriverService.arrive, hf, h.service_eq_some, hs, Option.bind_eq_bind,
        Option.bind_some, worker]
    · simp only [Function.update_self]
      exact h.vol
    · rw [hkeeps]
      exact h.volume
    · have hburst : s.burst = (D.workers f).burst := congrArg Service.burst h.service
      have hanswers : s.answers = (D.workers f).answers := congrArg Service.answers h.service
      have hdevice : s.device = D.world.device id := congrArg Service.device h.service
      rw [hkeeps]
      simp only [Driver.serviceOf, Function.update_self, worker, hburst, hanswers, hdevice]
  | thread ev =>
    obtain rfl := Option.some.inj hof
    change s.threadStep P ev = some s' at hs
    have hvol : volumeOf id (D.workers f).vol ev = id := by
      rw [h.vol]
      cases ev <;> rfl
    refine ⟨D.put f id s', ?_, ⟨lower, hf⟩, ?_, ?_, ?_⟩
    · simp only [DriverService.step, DriverService.threadStep, hthread, hvol, h.service_eq_some, hs, Option.bind_eq_bind,
        Option.bind_some]
    · simp only [Driver.put, Function.update_self]
    · simp only [Driver.put]
      rw [attached_modifyAttached, if_pos rfl, h.volume, Option.map_some]
    · simp only [Driver.put, Driver.serviceOf, Function.update_self]
  | startEncrypt => cases hof
  | startDecrypt => cases hof
  | pause => cases hof

theorem Bound.spares {ev : VolumeService.Event} {ev' : Event} (h : Bound f id D) (hof : Event.of f ev = some ev')
    (hfit : ∀ r, ev.sent = some r → Fits g r.irp) : Spares f id g D ev' := by
  refine ⟨h, ?_⟩
  cases ev with
  | arrive requestorMode reqId sent isWrite =>
    obtain rfl := Option.some.inj hof
    exact fun _ => hfit _ rfl
  | thread ev =>
    obtain rfl := Option.some.inj hof
    trivial
  | startEncrypt => cases hof
  | startDecrypt => cases hof
  | pause => cases hof

theorem At.run {events : List VolumeService.Event} {events' : List Event}
    (hof : List.Forall₂ (fun ev ev' => Event.of f ev = some ev') events events') (h : At f id s D)
    (hfit : ∀ ev ∈ events, ∀ r, ev.sent = some r → Fits g r.irp)
    (hrun : StepRun.run (Service.step P) s events = some s') :
    ∃ D', StepRun.run (DriverService.step W P) D events' = some D' ∧ At f id s' D' ∧
      StepRun.Along (DriverService.step W P) (Spares f id g) D events' := by
  induction hof generalizing s D with
  | nil =>
    obtain rfl := Option.some.inj hrun
    exact ⟨D, rfl, h, trivial⟩
  | @cons ev ev' rest rest' hev _ ih =>
    obtain ⟨t, ht, hrest⟩ := StepRun.run_cons_eq_some.mp hrun
    obtain ⟨D₁, hstep, h₁⟩ := h.step (W := W) hev ht
    obtain ⟨D', hrun', h', halong⟩ := ih h₁ (fun ev hmem => hfit ev (List.mem_cons_of_mem _ hmem)) hrest
    have hspares : Spares f id g D ev' := h.bound.spares hev (hfit ev (List.mem_cons_self ..))
    exact ⟨D', StepRun.run_cons_eq_some.mpr ⟨D₁, hstep, hrun'⟩, h', StepRun.Along.cons hstep hspares halong⟩

def osGuid : Fixed 16 := List.Vector.replicate 16 7

/-- The driver behind `DriverEntry`, with a handover. -/
def booted : Driver := ⟨⟨.loaded JvckMetadataStore (some osGuid), fun _ => headerDevice⟩, fun _ => .start false 0⟩

end Sample

end DriverService
