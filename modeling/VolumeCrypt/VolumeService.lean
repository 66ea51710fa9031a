import VolumeCrypt.FilterIo
import VolumeCrypt.StartRequest
import VolumeCrypt.VolumeThread

/-!
# The filter, its queue and its thread as one service

Applications send reads and writes through `handle_filter_irp`, the thread of the volume
serves the queue and sweeps between bursts, and START and PAUSE requests come in from the
control device. In any interleaving the volume is a plain disk whose sector 0 is the first
data sector, and which serves one request at a time in the order of arrival.
-/
namespace VolumeService

open ByteString VckTypes SectorIo CipherTraits JvckLayout JvckStore JvckReplicas JvckRuns SweepEngine VolumeSweep
  DataPath Transparency FilterIo
open JvckMetadata (Primitives)

/-! ## The service -/

deriving instance DecidableEq for Irp

/-- A queued request: which one it is, what was sent, and its stack location after the shift. -/
structure Request where
  id : Nat
  sent : Irp
  irp : Irp
  deriving DecidableEq

/-- `BATCH_SECTORS`. -/
def batchSectors : UInt64 := 2048

structure Service where
  thread : VolumeThread.State Request
  volume : AttachedVolume JvckMetadataStore
  device : Device
  burst : Option VolumeCipher
  /-- What enqueuers, thread and owner have done so far. -/
  log : List (VolumeThread.Event Request)
  /-- The requests that `process_irp` has served, in its order. -/
  answers : List (VolumeThread.IrpEntry Request × Completion)

inductive Event where
  | arrive (requestorMode : UInt8) (id : Nat) (sent : Irp) (isWrite : Bool)
  | thread (ev : VolumeThread.Event Request)
  | startEncrypt
  | startDecrypt
  | pause

namespace Service

def advance (s : Service) (ev : VolumeThread.Event Request) : Option Service :=
  (VolumeThread.step s.thread ev).map fun thread => { s with thread, log := s.log ++ [ev] }

def processIrp (s : Service) (e : VolumeThread.IrpEntry Request) : Service :=
  if e.isWrite then
    let (c, burst, volume, device) := processWrite s.volume s.burst e.irp.irp s.device
    { s with volume, device, burst, answers := s.answers ++ [(e, c)] }
  else
    let (c, burst, volume) := processRead s.volume s.burst e.irp.irp s.device
    { s with volume, burst, answers := s.answers ++ [(e, c)] }

/-- A read or write reaches the filter of a volume with a thread. -/
def arrive (s : Service) (requestorMode : UInt8) (id : Nat) (sent : Irp) (isWrite : Bool) : Option Service :=
  match handleFilterIrp ⟨some s.volume, true⟩ requestorMode (if isWrite then .write sent else .read sent) with
  | .enqueue irp isWrite =>
    s.advance (.enqueue ⟨⟨id, sent, irp⟩, isWrite⟩ (VolumeThread.enqueueStatus s.thread.shutdown))
  | .accessDenied => some s
  | _ => none

/-- The cipher of the burst is destroyed when the thread goes on to sweep. -/
def destroyBurst (s : Service) : Service :=
  match s.thread.thread with
  | .sweep _ => { s with burst := none }
  | _ => s

/-- `Ok(true)` means more work; an error is logged. -/
def moreWork : VckResult Bool → Bool
  | .ok more => more
  | .error _ => false

def threadStep (P : Primitives) (s : Service) : VolumeThread.Event Request → Option Service
  | .enqueue _ _ => none
  | .complete e .processed => (s.advance (.complete e .processed)).map (·.processIrp e)
  | .pop => (s.advance .pop).map destroyBurst
  | .sweepStep more =>
    let (result, volume, device) := s.volume.sweepStep (jvckOffsetStore P) batchSectors s.device
    if more = moreWork result then (s.advance (.sweepStep more)).map ({ · with volume, device }) else none
  | ev => s.advance ev

/-- `start_encrypt` or `start_decrypt` of the engine, whose answer from the store is dropped. -/
def turn (P : Primitives) (s : Service)
    (start : EncryptedOffsetStore JvckMetadataStore → EncryptionEngine → JvckMetadataStore → Device →
      EncryptionEngine × JvckMetadataStore × Device) : Service :=
  let (encryption, offsetStore, device) := start (jvckOffsetStore P) s.volume.encryption s.volume.offsetStore s.device
  { s with volume := { s.volume with encryption, offsetStore }, device }

def step (P : Primitives) (s : Service) : Event → Option Service
  | .arrive requestorMode id sent isWrite => s.arrive requestorMode id sent isWrite
  | .thread ev => s.threadStep P ev
  | .startEncrypt => some (s.turn P EncryptionEngine.startEncrypt)
  | .startDecrypt => some (s.turn P EncryptionEngine.startDecrypt)
  | .pause => some { s with volume := { s.volume with encryption := s.volume.encryption.pause } }

end Service

/-! ## The plain disk -/

/-- What the sender of a request gets back; the bytes are those of a read. -/
structure Answer where
  status : NtStatus
  information : Nat
  data : Bytes

/-- A request as its sender knows it. -/
structure Sent where
  id : Nat
  irp : Irp
  isWrite : Bool

def answerOf (a : VolumeThread.IrpEntry Request × Completion) : Answer :=
  ⟨a.2.status, a.2.information, if a.1.isWrite then [] else a.2.buffer.take a.2.information⟩

def sentOf (e : VolumeThread.IrpEntry Request) : Sent := ⟨e.irp.id, e.irp.sent, e.isWrite⟩

def Event.sent : Event → Option Sent
  | .arrive _ id sent isWrite => some ⟨id, sent, isWrite⟩
  | _ => none

/-- The bytes of a request on a disk of whole sectors. -/
def readPlain (ss : Nat) (disk : Nat → Bytes) (irp : Irp) : Bytes :=
  (List.range (irp.length.toNat / ss)).flatMap fun k => disk (irp.byteOffset.toNat / ss + k)

def writePlain (ss : Nat) (disk : Nat → Bytes) (irp : Irp) : Nat → Bytes := fun i =>
  if irp.byteOffset.toNat / ss ≤ i ∧ i < irp.byteOffset.toNat / ss + irp.length.toNat / ss then
    slice irp.buffer ((i - irp.byteOffset.toNat / ss) * ss) ss
  else disk i

/-- A plain disk serves a request, or fails it and stays as it is. -/
def serve (ss : Nat) (disk : Nat → Bytes) (r : Sent) : NtStatus → Answer × (Nat → Bytes)
  | .unsuccessful => (⟨.unsuccessful, 0, []⟩, disk)
  | .success =>
    if r.isWrite then (⟨.success, r.irp.length.toNat, []⟩, writePlain ss disk r.irp)
    else (⟨.success, r.irp.length.toNat, readPlain ss disk r.irp⟩, disk)

/-- The requests one after the other. -/
def replay (ss : Nat) (disk : Nat → Bytes) : List (Sent × NtStatus) → List Answer × (Nat → Bytes)
  | [] => ([], disk)
  | (r, status) :: rest =>
    let (answer, disk) := serve ss disk r status
    let (answers, disk) := replay ss disk rest
    (answer :: answers, disk)

theorem replay_concat (ss : Nat) (disk : Nat → Bytes) (rs : List (Sent × NtStatus)) (r : Sent) (status : NtStatus) :
    replay ss disk (rs ++ [(r, status)]) =
      ((replay ss disk rs).1 ++ [(serve ss (replay ss disk rs).2 r status).1],
        (serve ss (replay ss disk rs).2 r status).2) := by
  induction rs generalizing disk with
  | nil => rfl
  | cons head rs ih =>
    simp only [List.cons_append, replay, ih]

/-- What was served, and how it ended. -/
def served (s : Service) : List (Sent × NtStatus) := s.answers.map fun a => (sentOf a.1, a.2.status)

/-! ## Metadata that can be written -/

/-- Every replica can be written and the randomness source answers; data sectors may fail. -/
structure Writable (L : Layout) (d : Device) : Prop where
  replicas : ∀ i, i < L.count → d.writeFault (L.metaLba i) = false
  random : ∀ n, ∃ salt, d.random n = .ok salt

theorem Writable.frame {L : Layout} {S : Nat → Prop} {d d' : Device} (h : Writable L d) (hf : Frame S d d') :
    Writable L d' := by
  constructor
  · rw [hf.writeFault]
    exact h.replicas
  · rw [hf.random]
    exact h.random

theorem writable_of_healthy {d : Device} (hd : Healthy d) (L : Layout) : Writable L d :=
  ⟨fun _ _ => hd.writeFault _, hd.random⟩

theorem writeBlocks_unfaulted {d : Device} (hs : 512 ≤ d.ss) (block : Fixed 512) {lbas : List UInt64}
    (hl : ∀ lba ∈ lbas, lba.toNat < d.sectors ∧ d.writeFault lba.toNat = false) :
    (JvckMetadataStore.writeBlocks d.sectorSize block d lbas).1 = .ok () := by
  induction lbas generalizing d with
  | nil => rfl
  | cons lba lbas ih =>
    obtain ⟨hlt, hfault⟩ := hl lba (by simp)
    obtain ⟨hframe, -⟩ := writeBlock_spec hs lba block
    have hcases := StartRequest.writeBlock_cases hs hlt block
    rw [JvckMetadataStore.writeBlocks]
    generalize writeBlock d d.sectorSize lba block = w at hframe hcases
    obtain ⟨r, d₁⟩ := w
    rcases hcases with ⟨hbad, -⟩ | ⟨-, hok⟩
    · rw [hfault] at hbad
      cases hbad
    · obtain rfl : r = .ok () := hok
      simp only at hframe ⊢
      rw [← hframe.sectorSize]
      refine ih (by rw [hframe.ss]; exact hs) ?_
      intro l hmem
      rw [hframe.sectors, hframe.writeFault]
      exact hl l (by simp [hmem])

theorem writeAllReplicas_writable {P : Primitives} {L : Layout} {st : JvckMetadataStore} {d : Device}
    (hon : On st.toPlacement L d) (hw : Writable L d) (hcodec : st.codec = jvckCbcCodec P) :
    (st.writeAllReplicas d).1 = .ok () := by
  obtain ⟨salt, hsalt⟩ := hw.random d.draws
  have hfill := fillRandom_frame d
  have h₀ := hon.frame hfill
  have hw₀ := hw.frame hfill
  rw [JvckMetadataStore.writeAllReplicas, JvckMetadataStore.writeReplicas, List.take_length]
  rw [fillRandom] at hfill h₀ hw₀ ⊢
  obtain ⟨block, hblock⟩ : ∃ block, st.sealBlock salt = .ok block := by
    rw [JvckMetadataStore.sealBlock, hcodec]
    exact ⟨_, rfl⟩
  simp only [hsalt, hblock] at hfill h₀ hw₀ ⊢
  rw [h₀.sectorSize]
  refine writeBlocks_unfaulted h₀.ss block ?_
  intro lba hmem
  refine ⟨h₀.lt_of_mem_lbas hmem, ?_⟩
  rw [h₀.lbas] at hmem
  obtain ⟨i, hi, rfl⟩ := List.mem_map.mp hmem
  have hi := List.mem_range.mp hi
  rw [h₀.layout.toNat_metaLba hi]
  exact hw₀.replicas i hi

/-! ## Steps of a mounted volume -/

section Steps

variable {E : Env} {L : Layout} {g : Geometry} {cipher : VolumeCipher} {v : AttachedVolume JvckMetadataStore}
  {d : Device} {burst : Option VolumeCipher} {plain : Nat → Bytes}

/-- Answers given earlier do not matter to the volume. -/
theorem forget {s : Sys} {p : PlainVolume} (h : Mounted E L g cipher s p) (replies : List Bytes) :
    Mounted E L g cipher { s with replies } { p with replies } :=
  ⟨h.geometry, h.replicas, h.codec, h.vmk, h.supplier, h.lawful, h.keyed, h.synced, h.sectorSize, h.offset, h.total,
    h.config, h.stored, h.coherent, rfl⟩

/-- A batch succeeds, or the device is not healthy and it fails before it has changed anything. -/
theorem sweepStep_writable (h : Mounted E L g cipher ⟨v, d, burst, []⟩ ⟨plain, []⟩) (hw : Writable L d) (n : UInt64) :
    (∃ more v' d', v.sweepStep (jvckOffsetStore E.primitives) n d = (.ok more, v', d') ∧
        Frame (fun _ => True) d d') ∨
      ¬ Healthy d ∧ ∃ err, v.sweepStep (jvckOffsetStore E.primitives) n d = (.error err, v.acquired, d) := by
  by_cases hdue : ∃ c b, v.nextCipher = some c ∧ nextBatch c n v.encryption = some b
  · obtain ⟨c, b, hn, hb⟩ := hdue
    obtain rfl := nextCipher_eq h.supplies hn
    rcases sweepStep_batch (S := jvckOffsetStore E.primitives) h.lawful h.attached h.coherent.bounded hn hb with
      ⟨hacc, herr⟩ | ⟨-, d', r, state, hrew, hiff, hstep⟩
    · refine .inr ⟨fun hd => hacc ?_, herr⟩
      have hend : v.encryption.offsetSector.toNat + b.start.toNat + b.count.toNat ≤ d.sectors := by
        have hwithin : b.start.toNat + b.count.toNat ≤ v.encryption.encryptedOffset.totalSectors.toNat :=
          (nextBatch_cases h.coherent.bounded hb).1.within
        have hfits : v.encryption.offsetSector.toNat + v.encryption.encryptedOffset.totalSectors.toNat ≤ d.sectors :=
          h.attached.fits
        omega
      exact ⟨⟨hend, fun i _ => hd.readFault _⟩, hend, fun i _ => hd.writeFault _⟩
    · have hon : On v.offsetStore.toPlacement L d' := h.synced.on.frame hrew.frame
      have hok : ({ v.offsetStore with offset := b.boundary } : JvckMetadataStore).writeAllReplicas d' = (.ok (), _) :=
        Prod.ext (writeAllReplicas_writable (P := E.primitives) hon (hw.frame hrew.frame) h.codec) rfl
      have hper : Persists (jvckOffsetStore E.primitives) (v.encryption.setBoundary b.boundary) v.offsetStore d' :=
        ⟨congrArg Prod.fst hok, rfl⟩
      obtain ⟨more, rfl⟩ := hiff.mpr hper
      rw [persist_of_persists b.finished hper] at hstep
      obtain ⟨hmeta, -⟩ := writeAllReplicas_spec (s := { v.offsetStore with offset := b.boundary }) hon hok
      exact .inl ⟨more, _, _, hstep, (hrew.frame.mono fun _ _ => trivial).trans (hmeta.mono fun _ _ => trivial)⟩
  · obtain ⟨v', hstep, -⟩ := sweepStep_idle (S := jvckOffsetStore E.primitives) (d := d) hdue
    exact .inl ⟨false, v', d, hstep, .refl _ _⟩

/-- One batch of the thread. -/
theorem mounted_sweepStep (h : Mounted E L g cipher ⟨v, d, burst, []⟩ ⟨plain, []⟩) (hw : Writable L d)
    {r : VckResult Bool} {v' : AttachedVolume JvckMetadataStore} {d' : Device}
    (hs : v.sweepStep (jvckOffsetStore E.primitives) batchSectors d = (r, v', d')) :
    Mounted E L g cipher ⟨v', d', burst, []⟩ ⟨plain, []⟩ ∧ Frame (fun _ => True) d d' := by
  rcases sweepStep_writable h hw batchSectors with ⟨more, v₁, d₁, hok, hframe⟩ | ⟨-, err, herr⟩
  · rw [hok] at hs
    obtain ⟨rfl, rfl, rfl⟩ := Prod.mk.inj hs |>.imp_right Prod.mk.inj
    have hsweep : Transparency.step E g ⟨v, d, burst, []⟩ (.sweep batchSectors) = some ⟨v₁, d₁, burst, []⟩ := by
      simp only [Transparency.step, hok]
    exact ⟨h.sweep hsweep, hframe⟩
  · rw [herr] at hs
    obtain ⟨rfl, rfl, rfl⟩ := Prod.mk.inj hs |>.imp_right Prod.mk.inj
    exact ⟨h.request (samePath_acquired v) h.keyed.burst (.refl _ _) rfl fun rel hrel => h.plain_eq hrel, .refl _ _⟩

/-- A direction is persisted when the replicas can be written. -/
theorem storeState_writable {s : Sys} {p : PlainVolume} (h : Mounted E L g cipher s p) (hw : Writable L s.device)
    (direction : VolumeState) :
    (s.volume.offsetStore.storeState s.device direction).1 = .ok () ∧
      Frame (fun _ => True) s.device (s.volume.offsetStore.storeState s.device direction).2.2 := by
  have hon : On ({ s.volume.offsetStore with state := direction.asU16 } : JvckMetadataStore).toPlacement L s.device :=
    h.synced.on
  refine ⟨writeAllReplicas_writable (P := E.primitives) hon hw h.codec, ?_⟩
  exact (writeAllReplicas_spec hon rfl).1.mono fun _ _ => trivial

/-- A new direction. -/
theorem mounted_turn {s : Service} (h : Mounted E L g cipher ⟨s.volume, s.device, burst, []⟩ ⟨plain, []⟩)
    (hw : Writable L s.device) (direction : VolumeState)
    {start : EncryptedOffsetStore JvckMetadataStore → EncryptionEngine → JvckMetadataStore → Device →
      EncryptionEngine × JvckMetadataStore × Device}
    (hstart : ∀ S e st d,
      start S e st d = ({ e with state := e.startState direction }, (S.storeState st d direction).2)) :
    Mounted E L g cipher ⟨(s.turn E.primitives start).volume, (s.turn E.primitives start).device, burst, []⟩
        ⟨plain, []⟩ ∧ Frame (fun _ => True) s.device (s.turn E.primitives start).device := by
  obtain ⟨hok, hframe⟩ := storeState_writable h hw direction
  constructor
  · refine h.turn hstart ?_
    simp only [Transparency.turn, hok]
    rfl
  · rw [Service.turn, hstart]
    exact hframe

end Steps

/-! ## One request -/

/-- A request of whole sectors inside the reported size. -/
structure Fits (g : Geometry) (irp : Irp) : Prop where
  offset : irp.byteOffset.toNat % g.sectorSize.toNat = 0
  length : irp.length.toNat % g.sectorSize.toNat = 0
  buffer : irp.buffer.length = irp.length.toNat
  inside : irp.byteOffset.toNat + irp.length.toNat ≤ g.dataSectors.toNat * g.sectorSize.toNat

/-- What the filter queued is the request that was sent, moved behind the header replicas. -/
structure Placed (g : Geometry) (e : VolumeThread.IrpEntry Request) : Prop where
  inRegion : InDataRegion g e.irp.irp
  shifted : relOf g e.irp.irp = e.irp.sent.byteOffset.toNat / g.sectorSize.toNat
  length : e.irp.irp.length = e.irp.sent.length
  buffer : e.irp.irp.buffer = e.irp.sent.buffer
  pool : e.irp.irp.mapped = e.irp.sent.mapped ∧ e.irp.irp.allocated = e.irp.sent.allocated

section Requests

variable {E : Env} {L : Layout} {g : Geometry} {cipher : VolumeCipher} {v : AttachedVolume JvckMetadataStore}
  {d : Device} {burst : Option VolumeCipher} {plain : Nat → Bytes}

theorem shiftOffset_buffer (v : AttachedVolume JvckMetadataStore) (irp : Irp) :
    (shiftOffset v irp).buffer = irp.buffer := by
  rw [shiftOffset]
  split <;> rfl

/-- The shift of the filter places a request that fits. -/
theorem Fits.placed (h : Mounted E L g cipher ⟨v, d, burst, []⟩ ⟨plain, []⟩) {sent : Irp} (hfit : Fits g sent)
    (id : Nat) (isWrite : Bool) : Placed g ⟨⟨id, sent, shiftOffset v sent⟩, isWrite⟩ := by
  have hss : g.sectorSize.toNat = d.ss := h.ss_eq
  have hpos : 0 < d.ss := h.ss_pos
  have hsize : v.sectorSize.toNat = d.ss := congrArg UInt32.toNat h.sectorSize
  have hoff : v.offsetSector.toNat = g.offsetSector.toNat := congrArg UInt64.toNat h.config.1
  have hends : (g.offsetSector.toNat + g.dataSectors.toNat) * d.ss ≤ d.sectors * d.ss := by
    exact Nat.mul_le_mul_right _ h.region_le
  have haddr : d.sectors * d.ss < 2 ^ 64 := d.addressable
  rw [Nat.add_mul] at hends
  have hinside := hfit.inside
  rw [hss] at hinside
  have hshift : (shiftOffset v sent).byteOffset.toNat = g.offsetSector.toNat * d.ss + sent.byteOffset.toNat := by
    rw [toNat_shiftOffset_of_lt (by rw [hsize, hoff]; omega), hsize, hoff]
  obtain ⟨hlen, hmap, halloc⟩ := shiftOffset_fields v sent
  have hdiv : (shiftOffset v sent).byteOffset.toNat / d.ss = g.offsetSector.toNat + sent.byteOffset.toNat / d.ss := by
    rw [hshift, Nat.add_comm, Nat.add_mul_div_right _ _ hpos, Nat.add_comm]
  have hmod : (shiftOffset v sent).byteOffset.toNat % d.ss = 0 := by
    have := hfit.offset
    rw [hss] at this
    rw [hshift, Nat.mul_comm, Nat.mul_add_mod, this]
  have hcount : sent.byteOffset.toNat / d.ss + sent.length.toNat / d.ss ≤ g.dataSectors.toNat :=
    Nat.div_add_div_le_add_div.trans (Nat.div_le_of_le_mul (by rwa [Nat.mul_comm]))
  constructor
  · rw [InDataRegion, hss, hlen, hdiv, shiftOffset_buffer]
    refine ⟨hmod, by rw [← hss]; exact hfit.length, hfit.buffer, Nat.le_add_right _ _, ?_⟩
    rw [Nat.add_assoc]
    exact Nat.add_le_add_left hcount _
  · rw [relOf, hss]
    simp only [hdiv, Nat.add_sub_cancel_left]
  · exact hlen
  · exact shiftOffset_buffer v sent
  · exact ⟨hmap, halloc⟩

/-- A read or write of whole sectors that succeeds reports its length. -/
theorem information_of_success (burst : Option VolumeCipher) {irp : Irp} {lba n : Nat} (hcov : irp.Covers d.ss lba n)
    (hss : v.sectorSize = d.sectorSize) (hs : 0 < d.ss) :
    ((processRead v burst irp d).1.status = .success → (processRead v burst irp d).1.information = irp.length.toNat) ∧
      ((processWrite v burst irp d).1.status = .success →
        (processWrite v burst irp d).1.information = irp.length.toNat) := by
  rw [processRead_eq burst hcov hss hs, processWrite_eq burst hcov hss hs, hcov.length]
  by_cases hn : n = 0
  · rw [if_pos hn, if_pos hn, hn, Nat.zero_mul]
    exact ⟨fun _ => rfl, fun _ => rfl⟩
  · rw [if_neg hn, if_neg hn]
    by_cases hmap : (!irp.mapped || !irp.allocated) = true
    · rw [if_pos hmap, if_pos hmap]
      exact ⟨fun h => (by cases h), fun h => (by cases h)⟩
    · rw [if_neg hmap, if_neg hmap]
      constructor
      · cases readSectors d (irp.byteOffset / v.sectorSize.toUInt64) (n * d.ss) with
        | error e => exact fun h => (by cases h)
        | ok frag => exact fun _ => rfl
      · simp only
        generalize writeSectors d _ _ = w
        obtain ⟨r, d'⟩ := w
        cases r with
        | error e => exact fun h => (by cases h)
        | ok u => exact fun _ => rfl

/-- A request that fails reports nothing and leaves volume and device as they were. -/
theorem request_of_failure {irp : Irp} {lba n : Nat} (hcov : irp.Covers d.ss lba n)
    (hss : v.sectorSize = d.sectorSize) (hs : 0 < d.ss) (hc : LawfulCipher d.ss cipher) (hkey : Keyed v burst cipher) :
    ((processRead v burst irp d).1.status = .unsuccessful →
      processRead v burst irp d = (irp.complete .unsuccessful, burst, v)) ∧
    ((processWrite v burst irp d).1.status = .unsuccessful → ∃ burst' v',
      processWrite v burst irp d = (irp.complete .unsuccessful, burst', v', d) ∧ SamePath v v' ∧
        Keyed v' burst' cipher) := by
  rw [processRead_eq burst hcov hss hs, processWrite_eq burst hcov hss hs]
  by_cases hn : n = 0
  · rw [if_pos hn, if_pos hn]
    exact ⟨fun h => (by cases h), fun h => (by cases h)⟩
  · rw [if_neg hn, if_neg hn]
    by_cases hmap : (!irp.mapped || !irp.allocated) = true
    · rw [if_pos hmap, if_pos hmap]
      exact ⟨fun _ => rfl, fun _ => ⟨burst, v, rfl, .refl v, hkey⟩⟩
    · rw [if_neg hmap, if_neg hmap]
      constructor
      · cases readSectors d (irp.byteOffset / v.sectorSize.toUInt64) (n * d.ss) with
        | error e => exact fun _ => rfl
        | ok frag => exact fun h => (by cases h)
      · obtain ⟨frag', burst', v', hfrag, hlen, hsame, hkey', -⟩ := cryptFragment_sectors encryptWrite rfl
          hc.encryptArea hs hkey (irp.byteOffset / v.sectorSize.toUInt64) hcov.buffer
        simp only [hfrag]
        by_cases hreach : Reachable d d.writeFault (irp.byteOffset / v.sectorSize.toUInt64).toNat n
        · rw [writeSectors_of_reachable hs hlen hreach]
          exact fun h => (by cases h)
        · rw [writeSectors_of_not_reachable hs hlen hreach]
          exact fun _ => ⟨burst', v', rfl, hsame, hkey'⟩

/-- The sectors of a request in the data region are on the device. -/
theorem inRegion_fits (h : Mounted E L g cipher ⟨v, d, burst, []⟩ ⟨plain, []⟩) {irp : Irp}
    (hin : InDataRegion g irp) : irp.byteOffset.toNat / d.ss + irp.length.toNat / d.ss ≤ d.sectors := by
  exact (h.covers hin).2.2.trans h.region_le

/-- `process_read` answers as the plain disk does. -/
theorem processRead_serves (h : Mounted E L g cipher ⟨v, d, burst, []⟩ ⟨plain, []⟩) {id : Nat} {sent irp : Irp}
    (he : Placed g ⟨⟨id, sent, irp⟩, false⟩) {c : Completion} {burst' : Option VolumeCipher}
    {v' : AttachedVolume JvckMetadataStore} (hr : processRead v burst irp d = (c, burst', v')) :
    Mounted E L g cipher ⟨v', d, burst', []⟩ ⟨plain, []⟩ ∧
      answerOf (⟨⟨id, sent, irp⟩, false⟩, c) = (serve g.sectorSize.toNat plain ⟨id, sent, false⟩ c.status).1 ∧
      (Healthy d → sent.mapped = true ∧ sent.allocated = true → c.status = .success) := by
  have hin : InDataRegion g irp := he.inRegion
  obtain ⟨hcov, -, -⟩ := h.covers hin
  have hlen : irp.length = sent.length := he.length
  have hinfo := (information_of_success burst hcov h.sectorSize h.ss_pos).1
  have hfail := (request_of_failure hcov h.sectorSize h.ss_pos h.lawful h.keyed).1
  have hhealthy : Healthy d → sent.mapped = true ∧ sent.allocated = true → c.status = .success := by
    intro hd hmap
    have hok := (processRead_success burst hcov h.sectorSize h.ss_pos
      ⟨he.pool.1.trans hmap.1, he.pool.2.trans hmap.2⟩ ⟨inRegion_fits h hin, fun i _ => hd.readFault _⟩).1
    simp only [hr] at hok
    exact hok
  simp only [hr] at hinfo hfail
  cases hst : c.status with
  | success =>
    have hstep : Transparency.step E g ⟨v, d, burst, []⟩ (.read irp) =
        some ⟨v', d, burst', [c.buffer.take c.information]⟩ := by
      simp only [Transparency.step, hr]
      rw [if_pos ⟨hin, hst⟩]
      rfl
    have hread := h.read hstep
    have hreply := (List.cons.inj hread.replies).1
    refine ⟨forget hread [], ?_, fun _ _ => rfl⟩
    simp only [answerOf, serve, hst, hinfo hst, Bool.false_eq_true, if_false, hlen]
    rw [hinfo hst, hlen] at hreply
    rw [hreply, readPlain, show relOf g irp = _ from he.shifted]
  | unsuccessful =>
    obtain ⟨rfl, rfl, rfl⟩ := Prod.mk.inj (hfail hst) |>.imp_right Prod.mk.inj
    exact ⟨h, rfl, fun hd hmap => (by cases hst.symm.trans (hhealthy hd hmap))⟩

/-- `process_write` does to the device what the plain disk does to its sectors. -/
theorem processWrite_serves (h : Mounted E L g cipher ⟨v, d, burst, []⟩ ⟨plain, []⟩) {id : Nat} {sent irp : Irp}
    (he : Placed g ⟨⟨id, sent, irp⟩, true⟩) {c : Completion} {burst' : Option VolumeCipher}
    {v' : AttachedVolume JvckMetadataStore} {d' : Device} (hw : processWrite v burst irp d = (c, burst', v', d')) :
    Mounted E L g cipher ⟨v', d', burst', []⟩ ⟨(serve g.sectorSize.toNat plain ⟨id, sent, true⟩ c.status).2, []⟩ ∧
      answerOf (⟨⟨id, sent, irp⟩, true⟩, c) = (serve g.sectorSize.toNat plain ⟨id, sent, true⟩ c.status).1 ∧
      Frame (fun _ => True) d d' ∧
      (Healthy d → sent.mapped = true ∧ sent.allocated = true → c.status = .success) := by
  have hin : InDataRegion g irp := he.inRegion
  obtain ⟨hcov, hlo, -⟩ := h.covers hin
  have hlen : irp.length = sent.length := he.length
  have hbuf : irp.buffer = sent.buffer := he.buffer
  have hrel : relOf g irp = sent.byteOffset.toNat / g.sectorSize.toNat := he.shifted
  have hinfo := (information_of_success burst hcov h.sectorSize h.ss_pos).2
  have hfail := (request_of_failure hcov h.sectorSize h.ss_pos h.lawful h.keyed).2
  have hoff : v.offsetSector.toNat ≤ irp.byteOffset.toNat / d.ss := by
    rw [h.config.1]
    exact hlo
  have hle : v.encryptedBoundary.toNat ≤ v.dataSectors.toNat := by
    rw [h.config.2]
    exact h.boundary.2
  have hhealthy : Healthy d → sent.mapped = true ∧ sent.allocated = true → c.status = .success := by
    intro hd hmap
    have hok := processWrite_success hcov h.sectorSize h.ss_pos h.lawful h.keyed hoff hle
      ⟨he.pool.1.trans hmap.1, he.pool.2.trans hmap.2⟩ ⟨inRegion_fits h hin, fun i _ => hd.writeFault _⟩
    simp only [hw] at hok
    exact hok
  simp only [hw] at hinfo hfail
  cases hst : c.status with
  | success =>
    have hstep : Transparency.step E g ⟨v, d, burst, []⟩ (.write irp) = some ⟨v', d', burst', []⟩ := by
      simp only [Transparency.step, hw]
      rw [if_pos ⟨hin, hst⟩]
    have hwrite := h.write hstep
    obtain ⟨-, -, hframe, -⟩ := processWrite_spec hcov h.sectorSize h.ss_pos h.lawful h.keyed hoff hle hw hst
    have hvol : PlainVolume.apply g ⟨plain, []⟩ (.write irp) = ⟨writePlain g.sectorSize.toNat plain sent, []⟩ := by
      rw [PlainVolume.apply, hrel, hlen, hbuf]
      rfl
    rw [hvol] at hwrite
    refine ⟨hwrite, ?_, hframe.mono fun _ _ => trivial, fun _ _ => rfl⟩
    simp only [answerOf, serve, hst, hinfo hst, if_true, hlen]
  | unsuccessful =>
    obtain ⟨burst₁, v₁, heq, hsame, hkey⟩ := hfail hst
    obtain ⟨rfl, rfl, rfl, rfl⟩ := Prod.mk.inj heq |>.imp_right Prod.mk.inj |>.imp_right (·.imp_right Prod.mk.inj)
    exact ⟨h.request hsame hkey.burst (.refl _ _) rfl fun rel hr => h.plain_eq hr, rfl, .refl _ _,
      fun hd hmap => (by cases hst.symm.trans (hhealthy hd hmap))⟩

theorem processIrp_keeps (s : Service) (e : VolumeThread.IrpEntry Request) :
    (s.processIrp e).thread = s.thread ∧ (s.processIrp e).log = s.log := by
  rw [Service.processIrp]
  split <;> exact ⟨rfl, rfl⟩

/-- `process_irp` on a placed request: request and disk end as on the plain disk. -/
theorem processIrp_serves {s : Service} (h : Mounted E L g cipher ⟨s.volume, s.device, s.burst, []⟩ ⟨plain, []⟩)
    {e : VolumeThread.IrpEntry Request} (he : Placed g e) :
    ∃ c, (s.processIrp e).answers = s.answers ++ [(e, c)] ∧
      Mounted E L g cipher ⟨(s.processIrp e).volume, (s.processIrp e).device, (s.processIrp e).burst, []⟩
        ⟨(serve g.sectorSize.toNat plain (sentOf e) c.status).2, []⟩ ∧
      answerOf (e, c) = (serve g.sectorSize.toNat plain (sentOf e) c.status).1 ∧
      Frame (fun _ => True) s.device (s.processIrp e).device ∧
      (Healthy s.device → e.irp.sent.mapped = true ∧ e.irp.sent.allocated = true → c.status = .success) := by
  obtain ⟨⟨id, sent, irp⟩, isWrite⟩ := e
  cases isWrite with
  | false =>
    generalize hr : processRead s.volume s.burst irp s.device = w
    obtain ⟨c, burst', v'⟩ := w
    obtain ⟨hmount, hanswer, hok⟩ := processRead_serves h he hr
    have hproc : s.processIrp ⟨⟨id, sent, irp⟩, false⟩ =
        { s with volume := v', burst := burst', answers := s.answers ++ [(⟨⟨id, sent, irp⟩, false⟩, c)] } := by
      simp only [Service.processIrp, Bool.false_eq_true, if_false, hr]
    have hdisk : (serve g.sectorSize.toNat plain ⟨id, sent, false⟩ c.status).2 = plain := by
      cases c.status <;> rfl
    rw [hproc]
    refine ⟨c, rfl, ?_, hanswer, .refl _ _, hok⟩
    rw [show sentOf ⟨⟨id, sent, irp⟩, false⟩ = ⟨id, sent, false⟩ from rfl, hdisk]
    exact hmount
  | true =>
    generalize hw : processWrite s.volume s.burst irp s.device = w
    obtain ⟨c, burst', v', d'⟩ := w
    obtain ⟨hmount, hanswer, hframe, hok⟩ := processWrite_serves h he hw
    have hproc : s.processIrp ⟨⟨id, sent, irp⟩, true⟩ =
        { s with volume := v', device := d', burst := burst',
                 answers := s.answers ++ [(⟨⟨id, sent, irp⟩, true⟩, c)] } := by
      simp only [Service.processIrp, if_true, hw]
    rw [hproc]
    exact ⟨c, rfl, hmount, hanswer, hframe, hok⟩

end Requests

/-! ## Interleavings -/

/-- Events of the thread and its owner that neither take a request in nor serve one. -/
def Quiet : VolumeThread.Event Request → Prop
  | .enqueue _ _ => False
  | .complete _ .processed => False
  | _ => True

theorem history_concat (log : List (VolumeThread.Event Request)) (ev : VolumeThread.Event Request) :
    VolumeThread.history (log ++ [ev]) = (VolumeThread.history log).record ev := by
  rw [VolumeThread.history, List.foldl_append]
  rfl

theorem record_of_quiet {ev : VolumeThread.Event Request} (hq : Quiet ev) (h : VolumeThread.History Request) :
    (h.record ev).passed = h.passed ∧ (h.record ev).pushed = h.pushed ∧ (h.record ev).processed = h.processed := by
  cases ev with
  | enqueue e status => exact hq.elim
  | complete e outcome =>
    cases outcome with
    | processed => exact hq.elim
    | cancelled => exact ⟨rfl, rfl, rfl⟩
  | _ => exact ⟨rfl, rfl, rfl⟩

theorem record_enqueue (e : VolumeThread.IrpEntry Request) (status : VolumeThread.EnqueueStatus)
    (h : VolumeThread.History Request) :
    (h.record (.enqueue e status)).passed = h.passed ++ [e] ∧
      (h.record (.enqueue e status)).pushed.Sublist (h.pushed ++ [e]) ∧
      (h.record (.enqueue e status)).processed = h.processed := by
  cases status with
  | pending => exact ⟨rfl, List.Sublist.refl _, rfl⟩
  | cancelled => exact ⟨rfl, List.sublist_append_left _ _, rfl⟩

theorem advance_eq_some {s s' : Service} {ev : VolumeThread.Event Request} :
    s.advance ev = some s' ↔
      ∃ thread, VolumeThread.step s.thread ev = some thread ∧ s' = { s with thread, log := s.log ++ [ev] } := by
  rw [Service.advance, Option.map_eq_some_iff]
  constructor
  · rintro ⟨t, ht, rfl⟩
    exact ⟨t, ht, rfl⟩
  · rintro ⟨t, ht, rfl⟩
    exact ⟨t, ht, rfl⟩

/-- What holds between the service, the disk it started as and the requests that have arrived. -/
structure Linear (E : Env) (L : Layout) (g : Geometry) (cipher : VolumeCipher) (created : Bool) (d₀ : Device)
    (disk : Nat → Bytes) (s : Service) (arrived : List Sent) : Prop where
  mounted : Mounted E L g cipher ⟨s.volume, s.device, s.burst, []⟩
    ⟨(replay g.sectorSize.toNat disk (served s)).2, []⟩
  answers : s.answers.map answerOf = (replay g.sectorSize.toNat disk (served s)).1
  device : Frame (fun _ => True) d₀ s.device
  ran : StepRun.run VolumeThread.step (VolumeThread.start created) s.log = some s.thread
  processed : s.answers.map Prod.fst = (VolumeThread.history s.log).processed
  order : ((VolumeThread.history s.log).pushed.map sentOf).Sublist arrived
  placed : ∀ e ∈ (VolumeThread.history s.log).passed, Placed g e
  healthy : Healthy d₀ → ∀ a ∈ s.answers, a.1.irp.sent.mapped = true ∧ a.1.irp.sent.allocated = true →
    a.2.status = .success

namespace Linear

variable {E : Env} {L : Layout} {g : Geometry} {cipher : VolumeCipher} {created : Bool} {d₀ : Device}
  {disk : Nat → Bytes} {s s' : Service} {arrived : List Sent}

/-- The requests of the run are served in the order they were pushed. -/
theorem in_order (h : Linear E L g cipher created d₀ disk s arrived) :
    (s.answers.map fun a => sentOf a.1).Sublist arrived := by
  obtain ⟨popped, hpop, hsub⟩ := (VolumeThread.run_accounted h.ran).fifo
  have hproc : (VolumeThread.history s.log).processed.Sublist (VolumeThread.history s.log).pushed := by
    rw [← hpop]
    exact (List.sublist_append_left _ _).trans (hsub.trans (List.sublist_append_left _ _))
  have hmap := (hproc.map sentOf).trans h.order
  rw [← h.processed, List.map_map] at hmap
  exact hmap

theorem writable (h : Linear E L g cipher created d₀ disk s arrived) (hw : Writable L d₀) : Writable L s.device :=
  hw.frame h.device

/-- More arrivals. -/
theorem more (h : Linear E L g cipher created d₀ disk s arrived) (new : List Sent) :
    Linear E L g cipher created d₀ disk s (arrived ++ new) :=
  ⟨h.mounted, h.answers, h.device, h.ran, h.processed, h.order.trans (List.sublist_append_left _ _), h.placed,
    h.healthy⟩

/-- A new volume, device or burst behind the same queue. -/
theorem path (h : Linear E L g cipher created d₀ disk s arrived) {volume : AttachedVolume JvckMetadataStore}
    {device : Device} {burst : Option VolumeCipher}
    (hm : Mounted E L g cipher ⟨volume, device, burst, []⟩ ⟨(replay g.sectorSize.toNat disk (served s)).2, []⟩)
    (hd : Frame (fun _ => True) s.device device) :
    Linear E L g cipher created d₀ disk { s with volume, device, burst } arrived :=
  ⟨hm, h.answers, h.device.trans hd, h.ran, h.processed, h.order, h.placed, h.healthy⟩

theorem quiet (h : Linear E L g cipher created d₀ disk s arrived) {ev : VolumeThread.Event Request}
    (hs : s.advance ev = some s') (hq : Quiet ev) : Linear E L g cipher created d₀ disk s' arrived := by
  obtain ⟨thread, ht, rfl⟩ := advance_eq_some.mp hs
  obtain ⟨hpassed, hpushed, hprocessed⟩ := record_of_quiet hq (VolumeThread.history s.log)
  refine ⟨h.mounted, h.answers, h.device, StepRun.run_concat_eq_some.mpr ⟨s.thread, h.ran, ht⟩, ?_, ?_, ?_, h.healthy⟩
  · rw [history_concat, hprocessed]
    exact h.processed
  · rw [history_concat, hpushed]
    exact h.order
  · rw [history_concat, hpassed]
    exact h.placed

/-- A placed request is passed to `enqueue`, which pushes or cancels it. -/
theorem enqueue (h : Linear E L g cipher created d₀ disk s arrived) {e : VolumeThread.IrpEntry Request}
    {status : VolumeThread.EnqueueStatus} (he : Placed g e) (hs : s.advance (.enqueue e status) = some s') :
    Linear E L g cipher created d₀ disk s' (arrived ++ [sentOf e]) := by
  obtain ⟨thread, ht, rfl⟩ := advance_eq_some.mp hs
  obtain ⟨hpassed, hpushed, hprocessed⟩ := record_enqueue e status (VolumeThread.history s.log)
  refine ⟨h.mounted, h.answers, h.device, StepRun.run_concat_eq_some.mpr ⟨s.thread, h.ran, ht⟩, ?_, ?_, ?_, h.healthy⟩
  · rw [history_concat, hprocessed]
    exact h.processed
  · rw [history_concat]
    refine (hpushed.map sentOf).trans ?_
    rw [List.map_append]
    exact h.order.append (List.Sublist.refl _)
  · rw [history_concat, hpassed]
    intro e' he'
    rcases List.mem_append.mp he' with he' | he'
    · exact h.placed e' he'
    · rw [List.mem_singleton.mp he']
      exact he

/-- A request that fits comes to the filter. -/
theorem arrive (h : Linear E L g cipher created d₀ disk s arrived) {requestorMode : UInt8} {id : Nat} {sent : Irp}
    {isWrite : Bool} (hfit : Fits g sent) (hs : s.arrive requestorMode id sent isWrite = some s') :
    Linear E L g cipher created d₀ disk s' (arrived ++ [⟨id, sent, isWrite⟩]) := by
  have hdispatch : handleFilterIrp ⟨some s.volume, true⟩ requestorMode
      (if isWrite then .write sent else .read sent) = handleReadWrite s.volume true requestorMode sent isWrite := by
    cases isWrite <;> rfl
  rw [Service.arrive, hdispatch, handleReadWrite] at hs
  simp only [if_true] at hs
  split at hs
  · rename_i irp isWrite' heq
    split at heq
    · cases heq
    · obtain ⟨rfl, rfl⟩ := Dispatch.enqueue.inj heq
      exact h.enqueue (hfit.placed h.mounted id isWrite) hs
  · obtain rfl := Option.some.inj hs
    exact h.more _
  · cases hs

/-- The request that the thread completes is one that was passed to `enqueue`. -/
theorem claimed_placed (h : Linear E L g cipher created d₀ disk s arrived) {e : VolumeThread.IrpEntry Request}
    {outcome : VolumeThread.Outcome} {thread : VolumeThread.State Request}
    (ht : VolumeThread.step s.thread (.complete e outcome) = some thread) : Placed g e := by
  apply h.placed
  have hhand : s.thread.thread.inHand = [e] := by
    simp only [VolumeThread.step] at ht
    split at ht
    · rename_i e' n hth
      split at ht
      · rename_i he
        rw [hth, VolumeThread.ThreadPc.inHand, he]
      · cases ht
    · cases ht
  apply (VolumeThread.run_accounted h.ran).once.mem_iff.mp
  simp [hhand]

/-- The thread serves a request. -/
theorem serve (h : Linear E L g cipher created d₀ disk s arrived) {e : VolumeThread.IrpEntry Request}
    (hs : (s.advance (.complete e .processed)).map (·.processIrp e) = some s') :
    Linear E L g cipher created d₀ disk s' arrived := by
  obtain ⟨s₁, hs₁, rfl⟩ := Option.map_eq_some_iff.mp hs
  obtain ⟨thread, ht, rfl⟩ := advance_eq_some.mp hs₁
  have hplaced := h.claimed_placed ht
  obtain ⟨hthread, hlog⟩ := processIrp_keeps { s with thread, log := s.log ++ [.complete e .processed] } e
  obtain ⟨c, hanswers, hmount, hanswer, hframe, hok⟩ :=
    processIrp_serves (s := { s with thread, log := s.log ++ [.complete e .processed] }) h.mounted hplaced
  generalize Service.processIrp _ e = s₂ at hthread hlog hanswers hmount hframe ⊢
  simp only at hthread hlog hanswers hframe hok
  have hserved : served s₂ = served s ++ [(sentOf e, c.status)] := by
    rw [served, hanswers, List.map_append]
    rfl
  have hreplay := replay_concat g.sectorSize.toNat disk (served s) (sentOf e) c.status
  refine ⟨?_, ?_, h.device.trans hframe, ?_, ?_, ?_, ?_, ?_⟩
  · rw [hserved, hreplay]
    exact hmount
  · rw [hserved, hreplay, hanswers, List.map_append, h.answers, ← hanswer]
    rfl
  · rw [hlog, hthread]
    exact StepRun.run_concat_eq_some.mpr ⟨s.thread, h.ran, ht⟩
  · rw [hanswers, List.map_append, h.processed, hlog, history_concat]
    rfl
  · rw [hlog, history_concat]
    exact h.order
  · rw [hlog, history_concat]
    exact h.placed
  · intro hd a ha hmap
    rw [hanswers] at ha
    rcases List.mem_append.mp ha with ha | ha
    · exact h.healthy hd a ha hmap
    · obtain rfl := List.mem_singleton.mp ha
      exact hok (hd.frame h.device) hmap

/-- The cipher of a burst is dropped. -/
theorem destroyBurst (h : Linear E L g cipher created d₀ disk s arrived) :
    Linear E L g cipher created d₀ disk s.destroyBurst arrived := by
  rw [Service.destroyBurst]
  split
  · refine h.path (h.mounted.request (.refl _) (.inl rfl) (.refl _ _) rfl ?_) (.refl _ _)
    exact fun rel hrel => h.mounted.plain_eq hrel
  · exact h

theorem threadStep (h : Linear E L g cipher created d₀ disk s arrived) (hw : Writable L d₀)
    {ev : VolumeThread.Event Request} (hs : s.threadStep E.primitives ev = some s') :
    Linear E L g cipher created d₀ disk s' arrived := by
  cases ev with
  | enqueue e status => cases hs
  | complete e outcome =>
    cases outcome with
    | processed => exact h.serve hs
    | cancelled => exact h.quiet hs trivial
  | pop =>
    obtain ⟨s₁, hs₁, rfl⟩ := Option.map_eq_some_iff.mp hs
    exact (h.quiet hs₁ trivial).destroyBurst
  | sweepStep more =>
    simp only [Service.threadStep] at hs
    generalize hsweep : s.volume.sweepStep (jvckOffsetStore E.primitives) batchSectors s.device = w at hs
    obtain ⟨r, v', d'⟩ := w
    simp only at hs
    split at hs
    · obtain ⟨s₁, hs₁, rfl⟩ := Option.map_eq_some_iff.mp hs
      obtain ⟨hmount, hframe⟩ := mounted_sweepStep h.mounted (h.writable hw) hsweep
      obtain ⟨thread, ht, rfl⟩ := advance_eq_some.mp hs₁
      exact (h.quiet hs₁ trivial).path hmount hframe
    · cases hs
  | _ => exact h.quiet hs trivial

/-- One event. -/
theorem step (h : Linear E L g cipher created d₀ disk s arrived) (hw : Writable L d₀) {ev : Event}
    (hfit : ∀ r, ev.sent = some r → Fits g r.irp) (hs : s.step E.primitives ev = some s') :
    Linear E L g cipher created d₀ disk s' (arrived ++ ev.sent.toList) := by
  cases ev with
  | arrive requestorMode id sent isWrite => exact h.arrive (hfit _ rfl) hs
  | thread ev =>
    exact (h.threadStep hw hs).more _
  | startEncrypt =>
    obtain rfl := Option.some.inj hs
    obtain ⟨hmount, hframe⟩ := mounted_turn h.mounted (h.writable hw) .encrypt fun _ _ _ _ => rfl
    exact (h.path hmount hframe).more _
  | startDecrypt =>
    obtain rfl := Option.some.inj hs
    obtain ⟨hmount, hframe⟩ := mounted_turn h.mounted (h.writable hw) .decrypt fun _ _ _ _ => rfl
    exact (h.path hmount hframe).more _
  | pause =>
    obtain rfl := Option.some.inj hs
    have hmount := step_mounted (s := ⟨_, _, _, _⟩) h.mounted (show Reopens E.primitives L _ .pause from trivial) rfl
    exact (h.path hmount (.refl _ _)).more _

end Linear

/-- The requests of the events, collected one by one. -/
theorem collect_sent (events : List Event) (arrived : List Sent) :
    events.foldl (fun l ev => l ++ ev.sent.toList) arrived = arrived ++ events.filterMap Event.sent := by
  induction events generalizing arrived with
  | nil => simp
  | cons ev events ih =>
    rw [List.foldl_cons, ih, List.append_assoc]
    cases hev : ev.sent with
    | none => simp [hev]
    | some r => simp [hev]

theorem linear_start {E : Env} {L : Layout} {g : Geometry} {cipher : VolumeCipher} {disk : Nat → Bytes}
    {volume : AttachedVolume JvckMetadataStore} {device : Device} (created : Bool)
    (h : Mounted E L g cipher ⟨volume, device, none, []⟩ ⟨disk, []⟩) :
    Linear E L g cipher created device disk ⟨VolumeThread.start created, volume, device, none, [], []⟩ [] :=
  ⟨h, rfl, .refl _ _, rfl, rfl, List.Sublist.refl _, fun e he => (by cases he), fun _ a ha => (by cases ha)⟩

/-- In every interleaving of applications, thread, owner and control requests the volume is a plain disk of
its data sectors: the requests served so far, in their order of arrival, got the answers that the disk gives
to them one after the other, and the plain view of the device is the disk they leave. On a healthy device
none of them fails. -/
theorem service_linearizes {E : Env} {L : Layout} {g : Geometry} {cipher : VolumeCipher} {disk : Nat → Bytes}
    {volume : AttachedVolume JvckMetadataStore} {device : Device} (created : Bool)
    (h : Mounted E L g cipher ⟨volume, device, none, []⟩ ⟨disk, []⟩) (hw : Writable L device) {events : List Event}
    (hfit : ∀ ev ∈ events, ∀ r, ev.sent = some r → Fits g r.irp) {s : Service}
    (hrun : StepRun.run (Service.step E.primitives)
      ⟨VolumeThread.start created, volume, device, none, [], []⟩ events = some s) :
    (s.answers.map fun a => sentOf a.1).Sublist (events.filterMap Event.sent) ∧
      s.answers.map answerOf = (replay g.sectorSize.toNat disk (served s)).1 ∧
      (∀ rel, rel < g.dataSectors.toNat →
        plainSector cipher g.offsetSector.toNat s.volume.encryptedBoundary.toNat s.device rel =
          (replay g.sectorSize.toNat disk (served s)).2 rel) ∧
      (Healthy device → ∀ a ∈ s.answers, a.1.irp.sent.mapped = true ∧ a.1.irp.sent.allocated = true →
        a.2.status = .success) := by
  have hfin := StepRun.run_simulates_along (R := Linear E L g cipher created device disk)
    (fun l ev => l ++ ev.sent.toList) (C := fun _ ev => ∀ r, ev.sent = some r → Fits g r.irp)
    (fun h hfit hs => h.step hw hfit hs) (linear_start created h) (StepRun.along_of_forall hfit _) hrun
  rw [collect_sent, List.nil_append] at hfin
  exact ⟨hfin.in_order, hfin.answers, fun rel hrel => hfin.mounted.plain_eq hrel, hfin.healthy⟩

/-! ## A write and a read in one burst -/

section Sample

/-- The first sector as an application sees it. -/
def firstWrite : Irp := ⟨0, 512, List.replicate 512 7, true, true⟩

def firstRead : Irp := ⟨0, 512, List.replicate 512 0, true, true⟩

def writeEntry : VolumeThread.IrpEntry Request := ⟨⟨1, firstWrite, shiftOffset headerVolume firstWrite⟩, true⟩

def readEntry : VolumeThread.IrpEntry Request := ⟨⟨2, firstRead, shiftOffset headerVolume firstRead⟩, false⟩

/-- Two applications in user mode; the thread serves both requests in one burst. -/
def writeThenRead : List Event :=
  [.arrive 1 1 firstWrite true, .arrive 1 2 firstRead false, .thread .loadShutdown, .thread .pop,
    .thread (.complete writeEntry .processed), .thread .pop, .thread (.complete readEntry .processed)]

def headerService (d : Device) : Service := ⟨VolumeThread.start true, headerVolume, d, none, [], []⟩

theorem processIrp_answers (s : Service) (e : VolumeThread.IrpEntry Request) :
    ∃ c, (s.processIrp e).answers = s.answers ++ [(e, c)] := by
  rw [Service.processIrp]
  split <;> exact ⟨_, rfl⟩

theorem step_arrive (P : Primitives) {s : Service} {sent : Irp}
    (h : isMetadataSector s.volume (shiftOffset s.volume sent).byteOffset s.volume.sectorSize.toUInt64 = false)
    (requestorMode : UInt8) (id : Nat) (isWrite : Bool) :
    s.step P (.arrive requestorMode id sent isWrite) = s.advance (.enqueue ⟨⟨id, sent, shiftOffset s.volume sent⟩,
      isWrite⟩ (VolumeThread.enqueueStatus s.thread.shutdown)) := by
  have hdispatch : handleFilterIrp ⟨some s.volume, true⟩ requestorMode (if isWrite then .write sent else .read sent) =
      .enqueue (shiftOffset s.volume sent) isWrite := by
    cases isWrite <;> simp [handleFilterIrp, handleReadWrite, h]
  simp only [Service.step, Service.arrive, hdispatch]

theorem step_complete (P : Primitives) {s : Service} {e : VolumeThread.IrpEntry Request} {n : Nat}
    (h : s.thread.thread = .claimed e n) :
    s.step P (.thread (.complete e .processed)) =
      some (Service.processIrp { s with thread := { s.thread with thread := .burst (n + 1) true },
                                        log := s.log ++ [.complete e .processed] } e) := by
  simp only [Service.step, Service.threadStep, Service.advance, VolumeThread.step, h, if_true, Option.map_some]

/-- The volume in another state of the engine. -/
def engineAt (e : EncryptionEngine) : AttachedVolume JvckMetadataStore := { headerVolume with encryption := e }

theorem firstRequests_pass (e : EncryptionEngine) :
    isMetadataSector (engineAt e) (shiftOffset (engineAt e) firstWrite).byteOffset
        (engineAt e).sectorSize.toUInt64 = false ∧
      isMetadataSector (engineAt e) (shiftOffset (engineAt e) firstRead).byteOffset
        (engineAt e).sectorSize.toUInt64 = false := by
  -- The filter does not look at the engine.
  change isMetadataSector headerVolume (shiftOffset headerVolume firstWrite).byteOffset 512 = false ∧
    isMetadataSector headerVolume (shiftOffset headerVolume firstRead).byteOffset 512 = false
  decide

/-- Both requests are queued, and the thread has taken the first. -/
def bothQueued (e : EncryptionEngine) (d : Device) : Service :=
  ⟨⟨[readEntry], false, .claimed writeEntry 0, .bound⟩, engineAt e, d, none,
    [.enqueue writeEntry .pending, .enqueue readEntry .pending, .loadShutdown, .pop], []⟩

theorem writeThenRead_queued (P : Primitives) (e : EncryptionEngine) (d : Device) :
    StepRun.run (Service.step P) ⟨VolumeThread.start true, engineAt e, d, none, [], []⟩ writeThenRead =
      StepRun.run (Service.step P) (bothQueued e d)
        [.thread (.complete writeEntry .processed), .thread .pop, .thread (.complete readEntry .processed)] := by
  let s₀ : Service := ⟨VolumeThread.start true, engineAt e, d, none, [], []⟩
  have hwrite := step_arrive P (s := s₀) (firstRequests_pass e).1 1 1 true
  let s₁ : Service :=
    ⟨⟨[writeEntry], false, .top, .bound⟩, engineAt e, d, none, [.enqueue writeEntry .pending], []⟩
  have hread := step_arrive P (s := s₁) (firstRequests_pass e).2 1 2 false
  let s₂ : Service := ⟨⟨[writeEntry, readEntry], false, .top, .bound⟩, engineAt e, d, none,
    [.enqueue writeEntry .pending, .enqueue readEntry .pending], []⟩
  have h₁ : s₀.step P (.arrive 1 1 firstWrite true) = some s₁ := hwrite.trans rfl
  have h₂ : s₁.step P (.arrive 1 2 firstRead false) = some s₂ := hread.trans rfl
  let s₃ : Service := ⟨⟨[writeEntry, readEntry], false, .burst 0 false, .bound⟩, engineAt e, d, none,
    [.enqueue writeEntry .pending, .enqueue readEntry .pending, .loadShutdown], []⟩
  have h₃ : s₂.step P (.thread .loadShutdown) = some s₃ := rfl
  have h₄ : s₃.step P (.thread .pop) = some (bothQueued e d) := rfl
  change StepRun.run (Service.step P) s₀ writeThenRead = _
  simp only [writeThenRead, StepRun.run, h₁, h₂, h₃, h₄, Option.bind_some]

theorem writeThenRead_runs (P : Primitives) (e : EncryptionEngine) (d : Device) :
    ∃ s c₁ c₂, StepRun.run (Service.step P) ⟨VolumeThread.start true, engineAt e, d, none, [], []⟩ writeThenRead =
        some s ∧
      s.answers = [(writeEntry, c₁), (readEntry, c₂)] := by
  have hstep₁ := step_complete P (s := bothQueued e d) rfl
  generalize hs₁ : Service.mk _ _ _ _ _ _ = s₁ at hstep₁
  obtain ⟨hthread, -⟩ := processIrp_keeps s₁ writeEntry
  obtain ⟨c₁, hc₁⟩ := processIrp_answers s₁ writeEntry
  generalize s₁.processIrp writeEntry = s₂ at hthread hc₁ hstep₁
  rw [← hs₁] at hthread hc₁
  have hstep₂ : s₂.step P (.thread .pop) = some { s₂ with thread := ⟨[], false, .claimed readEntry 1, .bound⟩,
                                                          log := s₂.log ++ [.pop] } := by
    simp only [Service.step, Service.threadStep, Service.advance, hthread]
    rfl
  have hstep₃ := step_complete P (s := { s₂ with thread := ⟨[], false, .claimed readEntry 1, .bound⟩,
                                                 log := s₂.log ++ [.pop] }) rfl
  obtain ⟨c₂, hc₂⟩ := processIrp_answers
    { s₂ with thread := ⟨[], false, .burst 2 true, .bound⟩, log := s₂.log ++ [.pop] ++ [.complete readEntry .processed] }
    readEntry
  rw [writeThenRead_queued]
  refine ⟨_, c₁, c₂, StepRun.run_cons_eq_some.mpr ⟨s₂, hstep₁, StepRun.run_cons_eq_some.mpr ⟨_, hstep₂,
    StepRun.run_cons_eq_some.mpr ⟨_, hstep₃, rfl⟩⟩⟩, hc₂.trans ?_⟩
  simp only [hc₁]
  rfl

theorem firstRequests_fit : Fits (oneHeader.geometry 512) firstWrite ∧ Fits (oneHeader.geometry 512) firstRead :=
  ⟨⟨by decide, by decide, List.length_replicate, by decide⟩, ⟨by decide, by decide, List.length_replicate, by decide⟩⟩

/-- A plain disk of 512-byte sectors answers the read with what the write left. -/
theorem replay_writeThenRead (disk : Nat → Bytes) :
    (replay (oneHeader.geometry 512).sectorSize.toNat disk
        [(sentOf writeEntry, .success), (sentOf readEntry, .success)]).1 =
      [⟨.success, 512, []⟩, ⟨.success, 512, List.replicate 512 7⟩] := by
  have hss : (oneHeader.geometry 512).sectorSize.toNat = 512 := by decide
  have hread : readPlain 512 (writePlain 512 disk firstWrite) firstRead = List.replicate 512 7 := by
    have hone : firstRead.length.toNat / 512 = 1 := by decide
    have hzero : firstRead.byteOffset.toNat / 512 = 0 := by decide
    rw [readPlain, hone, hzero]
    simp only [List.range_one, List.flatMap_cons, List.flatMap_nil, List.append_nil, Nat.add_zero]
    rw [writePlain, if_pos (by decide)]
    have hall := slice_all (List.replicate 512 7)
    rw [List.length_replicate] at hall
    exact hall
  rw [hss]
  simp only [replay, serve, sentOf, writeEntry, readEntry, if_true, Bool.false_eq_true, if_false, hread]
  rfl

theorem writeThenRead_fits : ∀ ev ∈ writeThenRead, ∀ r, ev.sent = some r → Fits (oneHeader.geometry 512) r.irp := by
  intro ev hev r hr
  simp only [writeThenRead, List.mem_cons, List.not_mem_nil, or_false] at hev
  rcases hev with rfl | rfl | rfl | rfl | rfl | rfl | rfl
  · rw [← Option.some.inj hr]
    exact firstRequests_fit.1
  · rw [← Option.some.inj hr]
    exact firstRequests_fit.2
  all_goals cases hr

/-- What the plain disk answers, the two applications get. -/
theorem answers_writeThenRead {s : Service} {disk : Nat → Bytes} {c₁ c₂ : DataPath.Completion}
    (hanswers : s.answers = [(writeEntry, c₁), (readEntry, c₂)])
    (hreplay : s.answers.map answerOf = (replay (oneHeader.geometry 512).sectorSize.toNat disk (served s)).1)
    (hok : ∀ a ∈ s.answers, a.1.irp.sent.mapped = true ∧ a.1.irp.sent.allocated = true → a.2.status = .success) :
    s.answers.map answerOf = [⟨.success, 512, []⟩, ⟨.success, 512, List.replicate 512 7⟩] := by
  have h₁ := hok (writeEntry, c₁) (by rw [hanswers]; simp) ⟨rfl, rfl⟩
  have h₂ := hok (readEntry, c₂) (by rw [hanswers]; simp) ⟨rfl, rfl⟩
  simp only at h₁ h₂
  rw [hreplay, served, hanswers]
  simp only [List.map_cons, List.map_nil, h₁, h₂]
  exact replay_writeThenRead _

/-- Through filter, queue, thread and cipher the read answers what was written. -/
theorem service_linearizes_writeThenRead :
    ∃ s, StepRun.run (Service.step headerEnv.primitives) (headerService headerDevice) writeThenRead = some s ∧
      s.answers.map answerOf = [⟨.success, 512, []⟩, ⟨.success, 512, List.replicate 512 7⟩] := by
  have hfresh := headerDevice_fresh
  have hd := hfresh.healthy
  have hw := writable_of_healthy hd oneHeader
  obtain ⟨s, c₁, c₂, hrun, hanswers⟩ := writeThenRead_runs headerEnv.primitives headerVolume.encryption headerDevice
  obtain ⟨-, hreplay, -, hok⟩ := service_linearizes true hfresh.mounted hw writeThenRead_fits hrun
  exact ⟨s, hrun, answers_writeThenRead hanswers hreplay (hok hd)⟩

end Sample

end VolumeService
