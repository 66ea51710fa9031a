import VolumeCrypt.BootCycles
import VolumeCrypt.VolumeService

/-!
# Runs that go through

On a healthy disk with a footer the machine carries out every operation in its place: Block IO under
the loader, requests and sweeps under the driver, each request for whole sectors of the data region.
-/
namespace HealthyRuns

open ByteString ByteMemory VckTypes SectorIo CipherTraits JvckLayout JvckStore JvckReplicas SweepEngine VolumeSweep
  LoaderHook BootCycles VolumeService
open Transparency (Env Mounted PlainVolume InDataRegion step_reattach_device)
open FailClosed (InPlaceCipher diskFirmware hookedReadBlocks_eq)

/-! ## Operations in their place -/

/-- Whether the driver serves the volume. -/
def underDriver : Phase → Bool
  | .loader _ _ => false
  | .driver _ _ => true

/-- A request of the driver for whole sectors of the data region, whose buffers can be mapped and allocated. -/
def Servable (g : Geometry) : Transparency.Op → Prop
  | .read irp | .write irp => InDataRegion g irp ∧ irp.mapped = true ∧ irp.allocated = true
  | _ => True

/-- The phase of the machine is that of the operation, and the hook goes in at a boot. -/
def Proper (g : Geometry) (driver : Bool) : Op → Prop
  | .powerOn k => k.locate = .ok () ∧ k.install = .ok ()
  | .readBlocks lba buffer | .writeBlocks lba buffer => driver = false ∧ InBlocks g lba buffer.length
  | .mount _ => driver = false
  | .driver op => driver = true ∧ Servable g op

def driverAfter (driver : Bool) : Op → Bool
  | .powerOn _ => false
  | .mount _ => true
  | _ => driver

def ProperRun (g : Geometry) : Bool → List Op → Prop
  | _, [] => True
  | driver, op :: ops => Proper g driver op ∧ ProperRun g (driverAfter driver op) ops

/-! ## One operation -/

section Steps

variable {E : Env} {L : Layout} {g : Geometry} {cipher : VolumeCipher} {s s' : Transparency.Sys} {m : Machine}
  {p : PlainVolume} {d : Device}

theorem step_read_device {irp : DataPath.Irp} (hs : Transparency.step E g s (.read irp) = some s') :
    s'.device = s.device := by
  simp only [Transparency.step] at hs
  split at hs
  · rw [← Option.some.inj hs]
  · cases hs

theorem sweep_succeeds (h : Mounted E L g cipher s p) (hd : Healthy s.device) (batchSectors : UInt64) :
    ∃ s', Transparency.step E g s (.sweep batchSectors) = some s' ∧ Healthy s'.device := by
  obtain ⟨plain, replies⟩ := p
  rcases sweepStep_writable (forget h []) (writable_of_healthy hd L) batchSectors with
    ⟨more, volume, device, hok, hframe⟩ | ⟨hsick, -⟩
  · refine ⟨{ s with volume, device }, ?_, hd.frame hframe⟩
    simp only [Transparency.step, hok]
  · exact absurd hd hsick

theorem turn_succeeds (h : Mounted E L g cipher s p) (hd : Healthy s.device) (direction : VolumeState)
    {start : EncryptedOffsetStore JvckMetadataStore → EncryptionEngine → JvckMetadataStore → Device →
      EncryptionEngine × JvckMetadataStore × Device}
    (hstart : ∀ S e st d,
      start S e st d = ({ e with state := e.startState direction }, (S.storeState st d direction).2)) :
    ∃ s', Transparency.turn E s direction start = some s' ∧ Healthy s'.device := by
  obtain ⟨hok, hframe⟩ := storeState_writable h (writable_of_healthy hd L) direction
  simp only [Transparency.turn, hok, hstart]
  exact ⟨_, rfl, hd.frame hframe⟩

/-- The driver carries out what it is asked. -/
theorem driver_succeeds (h : Mounted E L g cipher s p) (hd : Healthy s.device) (hf : 0 < L.footers)
    {op : Transparency.Op} (hop : Servable g op) :
    ∃ s', Transparency.step E g s op = some s' ∧ Healthy s'.device := by
  cases op with
  | read irp =>
    obtain ⟨s', hs⟩ := h.read_succeeds hd hop.1 hop.2
    refine ⟨s', hs, ?_⟩
    rw [step_read_device hs]
    exact hd
  | write irp =>
    obtain ⟨s', hs, hd', -⟩ := h.write_succeeds hd hop.1 hop.2
    exact ⟨s', hs, hd'⟩
  | sweep batchSectors => exact sweep_succeeds h hd batchSectors
  | startEncrypt => exact turn_succeeds h hd .encrypt fun _ _ _ _ => rfl
  | startDecrypt => exact turn_succeeds h hd .decrypt fun _ _ _ _ => rfl
  | pause => exact ⟨_, rfl, hd⟩
  | endBurst => exact ⟨_, rfl, hd⟩
  | reattach resume =>
    have hre : Transparency.Reopens E.primitives L s (.reattach resume) := .inl hf
    obtain ⟨s', hs⟩ := h.reattach_succeeds hd hre
    refine ⟨s', hs, ?_⟩
    rw [step_reattach_device hs]
    exact hd

/-- The disk serves a hooked read of sectors that exist. -/
theorem callRead_succeeds (engine : BlockIoHookEngine) (hd : Healthy d) (hs : 0 < d.ss) {lba : UInt64} {n : Nat}
    (hn : 0 < n) {buffer : Bytes} (hl : buffer.length = n * d.ss) (hend : lba.toNat + n ≤ d.sectors) (calls : Nat) :
    ∃ out, callRead diskFirmware (some engine) calls lba buffer d = (.success, some out) := by
  have hread : diskFirmware.readBlocks d lba (n * d.ss) (some buffer) = (.success, some (d.area lba.toNat n)) := by
    simp only [diskFirmware, readSectors_of_reachable hs ⟨hend, fun i _ => hd.readFault _⟩]
    rw [copyAt_zero_of_length_le (by rw [length_area, hl])]
  rw [callRead, hl, hookedReadBlocks_eq hs hn (length_area ..) hread]
  exact ⟨_, rfl⟩

/-- A request for Block IO in the data region is for sectors of the disk. -/
theorem blocks_of_mounted {volume : AttachedVolume JvckMetadataStore} {replies : List Bytes}
    (h : Mounted E L g cipher ⟨volume, d, none, replies⟩ p) {lba : UInt64} {buffer : Bytes}
    (hin : InBlocks g lba buffer.length) : ∃ n, 0 < n ∧ buffer.length = n * d.ss ∧ lba.toNat + n ≤ d.sectors := by
  obtain ⟨n, hn, hl, -, -, hhi⟩ := hin.sectors h
  exact ⟨n, hn, hl, hhi.trans h.region_le⟩

/-- An operation in its place is carried out, and finds at a boot or a mount what it needs. -/
theorem step_proper (hplace : InPlaceCipher cipher) (hf : 0 < L.footers) (h : Carried E L g cipher m p)
    (hd : Healthy m.device) {op : Op} (hop : Proper g (underDriver m.phase) op) :
    Bootable E.primitives L m op ∧ ∃ m', step diskFirmware E g m op = some m' ∧ Healthy m'.device ∧
      underDriver m'.phase = driverAfter (underDriver m.phase) op := by
  obtain ⟨volume, hmount⟩ := h.mounted
  have hopens : Opens E.primitives L m.device := opens_of_healthy hmount hd (.inl hf)
  obtain ⟨device, phase, replies⟩ := m
  cases op with
  | powerOn k => exact ⟨⟨hop.1, hop.2, hopens⟩, _, rfl, hd, rfl⟩
  | mount resume =>
    refine ⟨hopens, ?_⟩
    obtain ⟨attached, hattach, -⟩ := attach_of_opens hmount hopens resume
    simp only at hattach
    cases phase with
    | driver volume burst => cases hop
    | loader hook calls =>
      simp only [step, hattach]
      exact ⟨_, rfl, hd, rfl⟩
  | driver op =>
    obtain ⟨hphase, hserve⟩ := hop
    cases phase with
    | loader hook calls => cases hphase
    | driver attached burst =>
      obtain ⟨s', hs, hd'⟩ := driver_succeeds (s := ⟨attached, device, burst, replies⟩) h hd hf hserve
      refine ⟨?_, ?_⟩
      · cases op with
        | reattach resume => exact hopens
        | _ => trivial
      · simp only [step, hs]
        exact ⟨_, rfl, hd', rfl⟩
  | readBlocks lba buffer =>
    obtain ⟨hphase, hin⟩ := hop
    cases phase with
    | driver volume burst => cases hphase
    | loader hook calls =>
      obtain ⟨volume, engine, rfl, -, hmount⟩ := h
      obtain ⟨n, hn, hl, hend⟩ := blocks_of_mounted hmount hin
      obtain ⟨out, hread⟩ := callRead_succeeds engine hd hmount.ss_pos hn hl hend calls
      refine ⟨trivial, ?_⟩
      simp only at hread
      simp only [step, hread, if_pos hin]
      exact ⟨_, rfl, hd, rfl⟩
  | writeBlocks lba buffer =>
    obtain ⟨hphase, hin⟩ := hop
    cases phase with
    | driver volume burst => cases hphase
    | loader hook calls =>
      obtain ⟨volume, engine, rfl, hhook, hmount⟩ := h
      obtain ⟨n, hn, hl, hend⟩ := blocks_of_mounted hmount hin
      obtain ⟨d', hwrite, hframe⟩ := callWrite_succeeds hplace hhook hd hmount.ss_pos hn hl hend calls
      refine ⟨trivial, ?_⟩
      simp only at hwrite
      simp only [step, hwrite, if_pos hin]
      exact ⟨_, rfl, hd.frame hframe, rfl⟩

/-! ## Whole runs -/

/-- On a healthy disk with a footer every run of operations in their places goes through, and each boot and each mount
opens the volume. -/
theorem run_proper (hplace : InPlaceCipher cipher) (hf : 0 < L.footers) {ops : List Op}
    (h : Carried E L g cipher m p) (hd : Healthy m.device) (hops : ProperRun g (underDriver m.phase) ops) :
    StepRun.Along (step diskFirmware E g) (Bootable E.primitives L) m ops ∧
      ∃ m', StepRun.run (step diskFirmware E g) m ops = some m' := by
  induction ops generalizing m p with
  | nil => exact ⟨trivial, m, rfl⟩
  | cons op ops ih =>
    obtain ⟨hop, hrest⟩ := hops
    obtain ⟨hboot, m₁, hstep, hd₁, hphase⟩ := step_proper hplace hf h hd hop
    have h₁ := step_carried diskFirmware_exact hplace h hboot hstep
    obtain ⟨halong, m', hrun⟩ := ih h₁ hd₁ (by rw [hphase]; exact hrest)
    exact ⟨.cons hstep hboot halong, m', StepRun.run_cons_eq_some.mpr ⟨m₁, hstep, hrun⟩⟩

end Steps

end HealthyRuns
