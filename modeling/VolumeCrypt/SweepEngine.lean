import VolumeCrypt.CipherTraits
import VolumeCrypt.JvckRuns

/-!
# The background sweep

`EncryptionEngine` of `lib/windrv/src/offset/engine.rs` over the
`EncryptedOffsetStore` trait of `lib/common/src/store.rs`. A batch reads sectors
next to the boundary, transforms and writes them back, moves the boundary and
persists it; each of the four calls can end it early.
-/
namespace SweepEngine

open ByteString VckTypes SectorIo CipherTraits JvckLayout JvckStore JvckReplicas JvckRuns
open JvckMetadata (Primitives)

/-! ## The store trait -/

/-- `EncryptedOffsetStore`; a call may change the store's own state and the device. -/
structure EncryptedOffsetStore (σ : Type) where
  load : σ → Device → VckResult EncryptedOffset
  store : σ → Device → EncryptedOffset → VckResult Unit × σ × Device
  flush : σ → Device → VckResult Unit × σ × Device
  loadState : σ → Device → VckResult VolumeState
  storeState : σ → Device → VolumeState → VckResult Unit × σ × Device

def jvckOffsetStore (P : Primitives) : EncryptedOffsetStore JvckMetadataStore where
  load s d := s.load P d
  store := JvckMetadataStore.store
  flush := JvckMetadataStore.flush
  loadState s _ := s.loadState
  storeState := JvckMetadataStore.storeState

/-- While `I` holds, no call of the store reaches the sectors of `data`. -/
structure Confined {σ : Type} (S : EncryptedOffsetStore σ) (data : Nat → Prop) (I : σ → Device → Prop) : Prop where
  frame : ∀ {st d d'}, I st d → Frame data d d' → I st d'
  store : ∀ {st d} o, I st d → Frame (¬ data ·) d (S.store st d o).2.2 ∧ I (S.store st d o).2.1 (S.store st d o).2.2
  flush : ∀ {st d}, I st d → Frame (¬ data ·) d (S.flush st d).2.2 ∧ I (S.flush st d).2.1 (S.flush st d).2.2
  storeState : ∀ {st d} v, I st d →
    Frame (¬ data ·) d (S.storeState st d v).2.2 ∧ I (S.storeState st d v).2.1 (S.storeState st d v).2.2

/-- Re-sealing the replicas leaves the data region alone. -/
theorem jvckOffsetStore_confined (P : Primitives) (L : Layout) :
    Confined (jvckOffsetStore P) L.InData fun s d => On s.toPlacement L d := by
  have hreseal {s : JvckMetadataStore} {d : Device} (h : On s.toPlacement L d) :
      Frame (¬ L.InData ·) d (s.writeAllReplicas d).2 ∧ On s.toPlacement L (s.writeAllReplicas d).2 := by
    obtain ⟨hframe, -⟩ := writeAllReplicas_spec (r := (s.writeAllReplicas d).1) h rfl
    refine ⟨hframe.mono ?_, h.frame hframe⟩
    rintro l ⟨i, hi, rfl⟩
    exact L.metaLba_not_data hi
  constructor
  · intro s d d' h hf
    exact h.frame hf
  · intro s d o h
    exact hreseal (s := { s with offset := o.sector }) h
  · intro s d h
    exact ⟨.refl _ _, h⟩
  · intro s d v h
    exact hreseal (s := { s with state := v.asU16 }) h

/-! ## The engine -/

inductive EngineState where
  | idle
  | encrypting
  | decrypting
  | paused
  deriving DecidableEq, Repr

structure EncryptionEngine where
  offsetSector : UInt64
  encryptedOffset : EncryptedOffset
  state : EngineState

namespace EncryptionEngine

variable {σ : Type}

def new (offsetSector : UInt64) (encryptedOffset : EncryptedOffset) : EncryptionEngine :=
  { offsetSector, encryptedOffset, state := .idle }

def encryptedBoundary (e : EncryptionEngine) : UInt64 := e.encryptedOffset.sector

/-- The state that a sweep in direction `v` starts in; `idle` when nothing is left to do. -/
def startState (e : EncryptionEngine) : VolumeState → EngineState
  | .encrypt => if e.encryptedOffset.isFullyEncrypted then .idle else .encrypting
  | .decrypt => if e.encryptedOffset.sector > 0 then .decrypting else .idle

/-- `start_encrypt`; the answer of `store_state` is dropped. -/
def startEncrypt (S : EncryptedOffsetStore σ) (e : EncryptionEngine) (st : σ) (d : Device) :
    EncryptionEngine × σ × Device :=
  ({ e with state := e.startState .encrypt }, (S.storeState st d .encrypt).2)

def startDecrypt (S : EncryptedOffsetStore σ) (e : EncryptionEngine) (st : σ) (d : Device) :
    EncryptionEngine × σ × Device :=
  ({ e with state := e.startState .decrypt }, (S.storeState st d .decrypt).2)

/-- Continue in the persisted direction. -/
def resume (S : EncryptedOffsetStore σ) (e : EncryptionEngine) (st : σ) (d : Device) : EncryptionEngine :=
  { e with state := e.startState ((S.loadState st d).toOption.getD .encrypt) }

def pause (e : EncryptionEngine) : EncryptionEngine :=
  match e.state with
  | .encrypting | .decrypting => { e with state := .paused }
  | _ => e

def setBoundary (e : EncryptionEngine) (boundary : UInt64) : EncryptionEngine :=
  { e with encryptedOffset := { e.encryptedOffset with sector := boundary } }

/-- The end of a batch: `store(..)?`, `flush()?`, and `Ok(false)` in state `idle` when finished. -/
def persist (S : EncryptedOffsetStore σ) (finished : EncryptedOffset → Bool) (e : EncryptionEngine) (st : σ)
    (d : Device) : VckResult Bool × EncryptionEngine × σ × Device :=
  match S.store st d e.encryptedOffset with
  | (.error err, st, d) => (.error err, e, st, d)
  | (.ok (), st, d) =>
    match S.flush st d with
    | (.error err, st, d) => (.error err, e, st, d)
    | (.ok (), st, d) =>
      if finished e.encryptedOffset then (.ok false, { e with state := .idle }, st, d) else (.ok true, e, st, d)

/-- The body that both directions share. The length of the buffer is a 64-bit product. -/
def batchStep (S : EncryptedOffsetStore σ) (area : Bytes → Nat → UInt64 → Bytes) (finished : EncryptedOffset → Bool)
    (start count boundary : UInt64) (e : EncryptionEngine) (st : σ) (d : Device) :
    VckResult Bool × EncryptionEngine × σ × Device :=
  let sectorSize := d.sectorSize.toNat
  let abs := e.offsetSector + start
  match readSectors d abs (count.toNat * sectorSize % 2 ^ 64) with
  | .error err => (.error err, e, st, d)
  | .ok buf =>
    match writeSectors d abs (area buf sectorSize start) with
    | (.error err, d) => (.error err, e, st, d)
    | (.ok (), d) => persist S finished (e.setBoundary boundary) st d

def encryptStep (S : EncryptedOffsetStore σ) (cipher : VolumeCipher) (batchSectors : UInt64) (e : EncryptionEngine)
    (st : σ) (d : Device) : VckResult Bool × EncryptionEngine × σ × Device :=
  if e.encryptedOffset.isFullyEncrypted then (.ok false, { e with state := .idle }, st, d)
  else
    let startRel := e.encryptedOffset.sector
    let remaining := e.encryptedOffset.totalSectors - startRel
    let count := min remaining (max batchSectors 1)
    batchStep S cipher.encryptArea EncryptedOffset.isFullyEncrypted startRel count (startRel + count) e st d

def decryptStep (S : EncryptedOffsetStore σ) (cipher : VolumeCipher) (batchSectors : UInt64) (e : EncryptionEngine)
    (st : σ) (d : Device) : VckResult Bool × EncryptionEngine × σ × Device :=
  if e.encryptedOffset.sector = 0 then (.ok false, { e with state := .idle }, st, d)
  else
    let count := min e.encryptedOffset.sector (max batchSectors 1)
    let newBoundary := e.encryptedOffset.sector - count
    batchStep S cipher.decryptArea (fun o => o.sector == 0) newBoundary count newBoundary e st d

def progressStep (S : EncryptedOffsetStore σ) (cipher : VolumeCipher) (batchSectors : UInt64) (e : EncryptionEngine)
    (st : σ) (d : Device) : VckResult Bool × EncryptionEngine × σ × Device :=
  match e.state with
  | .encrypting => encryptStep S cipher batchSectors e st d
  | .decrypting => decryptStep S cipher batchSectors e st d
  | _ => (.ok false, e, st, d)

end EncryptionEngine

/-! ## Batches -/

open EncryptionEngine

/-- One batch of the sweep: the sectors it rewrites, how, and the boundary it leads to. -/
structure Batch where
  start : UInt64
  count : UInt64
  boundary : UInt64
  area : Bytes → Nat → UInt64 → Bytes
  sector : UInt64 → Bytes → Bytes
  finished : EncryptedOffset → Bool

/-- The batch that is due, if any. -/
def nextBatch (cipher : VolumeCipher) (batchSectors : UInt64) (e : EncryptionEngine) : Option Batch :=
  let o := e.encryptedOffset
  match e.state with
  | .encrypting =>
    if o.isFullyEncrypted then none
    else
      let count := min (o.totalSectors - o.sector) (max batchSectors 1)
      some ⟨o.sector, count, o.sector + count, cipher.encryptArea, cipher.encryptSector,
        EncryptedOffset.isFullyEncrypted⟩
  | .decrypting =>
    if o.sector = 0 then none
    else
      let count := min o.sector (max batchSectors 1)
      some ⟨o.sector - count, count, o.sector - count, cipher.decryptArea, cipher.decryptSector, fun o => o.sector == 0⟩
  | _ => none

section Batches

variable {σ : Type} {S : EncryptedOffsetStore σ} {cipher : VolumeCipher} {batchSectors : UInt64}
  {e : EncryptionEngine} {st : σ} {d : Device}

/-- A step without a due batch changes nothing but the engine's state. -/
theorem progressStep_of_none (S : EncryptedOffsetStore σ) (st : σ) (d : Device)
    (h : nextBatch cipher batchSectors e = none) :
    ∃ state, progressStep S cipher batchSectors e st d = (.ok false, { e with state }, st, d) := by
  obtain ⟨offset, o, state⟩ := e
  unfold nextBatch at h
  unfold progressStep
  cases state with
  | encrypting =>
    simp only [encryptStep] at h ⊢
    split at h
    · rename_i hfull
      exact ⟨.idle, by rw [if_pos hfull]⟩
    · cases h
  | decrypting =>
    simp only [decryptStep] at h ⊢
    split at h
    · rename_i hzero
      exact ⟨.idle, by rw [if_pos hzero]⟩
    · cases h
  | idle => exact ⟨.idle, rfl⟩
  | paused => exact ⟨.paused, rfl⟩

theorem progressStep_of_some (S : EncryptedOffsetStore σ) (st : σ) (d : Device) {b : Batch}
    (h : nextBatch cipher batchSectors e = some b) :
    progressStep S cipher batchSectors e st d =
      batchStep S b.area b.finished b.start b.count b.boundary e st d := by
  obtain ⟨offset, o, state⟩ := e
  unfold nextBatch at h
  unfold progressStep
  cases state with
  | encrypting =>
    simp only [encryptStep] at h ⊢
    split at h
    · cases h
    · rename_i hfull
      obtain rfl := Option.some.inj h
      rw [if_neg hfull]
  | decrypting =>
    simp only [decryptStep] at h ⊢
    split at h
    · cases h
    · rename_i hzero
      obtain rfl := Option.some.inj h
      rw [if_neg hzero]
  | idle => cases h
  | paused => cases h

theorem toNat_batchCount (remaining batch : UInt64) :
    (min remaining (max batch 1)).toNat = min remaining.toNat (max batch.toNat 1) := by
  have hmin (a b : UInt64) : (min a b).toNat = min a.toNat b.toNat := by
    rw [UInt64.min_def, Nat.min_def]
    simp only [UInt64.le_iff_toNat_le]
    split <;> rfl
  have hmax (a b : UInt64) : (max a b).toNat = max a.toNat b.toNat := by
    rw [UInt64.max_def, Nat.max_def]
    simp only [UInt64.le_iff_toNat_le]
    split <;> rfl
  rw [hmin, hmax]
  rfl

/-- An encrypting batch does not overflow. -/
theorem toNat_encryptBatch {sector total : UInt64} (batch : UInt64) (hle : sector.toNat ≤ total.toNat) :
    (min (total - sector) (max batch 1)).toNat = min (total.toNat - sector.toNat) (max batch.toNat 1) ∧
      (sector + min (total - sector) (max batch 1)).toNat =
        sector.toNat + (min (total - sector) (max batch 1)).toNat := by
  have hlt := total.toNat_lt
  have hrest : (total - sector).toNat = total.toNat - sector.toNat :=
    UInt64.toNat_sub_of_le _ _ (UInt64.le_iff_toNat_le.mpr hle)
  have hcount := toNat_batchCount (total - sector) batch
  rw [hrest] at hcount
  refine ⟨hcount, ?_⟩
  rw [UInt64.toNat_add, Nat.mod_eq_of_lt (by omega)]

/-- A decrypting batch does not go below zero. -/
theorem toNat_decryptBatch (sector batch : UInt64) :
    (min sector (max batch 1)).toNat = min sector.toNat (max batch.toNat 1) ∧
      (sector - min sector (max batch 1)).toNat = sector.toNat - (min sector (max batch 1)).toNat := by
  have hcount := toNat_batchCount sector batch
  exact ⟨hcount, UInt64.toNat_sub_of_le _ _ (UInt64.le_iff_toNat_le.mpr (by omega))⟩

/-- How a batch lies in the data region, and which way it moves the boundary. -/
structure Batch.Fits (b : Batch) (o : EncryptedOffset) : Prop where
  count_pos : 0 < b.count.toNat
  within : b.start.toNat + b.count.toNat ≤ o.totalSectors.toNat
  bounded : b.boundary.toNat ≤ o.totalSectors.toNat
  moved : b.boundary ≠ o.sector

/-- An encrypting batch starts at the boundary and moves it to its own end. -/
structure Batch.Encrypts (b : Batch) (cipher : VolumeCipher) (o : EncryptedOffset) : Prop where
  start : b.start = o.sector
  boundary : b.boundary.toNat = o.sector.toNat + b.count.toNat
  area : b.area = cipher.encryptArea
  sector : b.sector = cipher.encryptSector

/-- A decrypting batch ends at the boundary and moves it to its own start. -/
structure Batch.Decrypts (b : Batch) (cipher : VolumeCipher) (o : EncryptedOffset) : Prop where
  start : b.start = b.boundary
  boundary : b.boundary.toNat + b.count.toNat = o.sector.toNat
  area : b.area = cipher.decryptArea
  sector : b.sector = cipher.decryptSector

theorem nextBatch_cases {b : Batch} (hle : e.encryptedOffset.sector.toNat ≤ e.encryptedOffset.totalSectors.toNat)
    (h : nextBatch cipher batchSectors e = some b) :
    b.Fits e.encryptedOffset ∧ (b.Encrypts cipher e.encryptedOffset ∨ b.Decrypts cipher e.encryptedOffset) := by
  obtain ⟨offset, ⟨sector, total⟩, state⟩ := e
  simp only at hle
  have hlt := total.toNat_lt
  unfold nextBatch at h
  cases state with
  | encrypting =>
    simp only at h
    split at h
    · cases h
    · rename_i hfull
      obtain rfl := Option.some.inj h
      have hfull : sector < total := by
        simpa [EncryptedOffset.isFullyEncrypted] using hfull
      rw [UInt64.lt_iff_toNat_lt] at hfull
      obtain ⟨hcount, hsum⟩ := toNat_encryptBatch batchSectors hle
      refine ⟨⟨by simp only; omega, by simp only; omega, by simp only; omega, ?_⟩, .inl ⟨rfl, hsum, rfl, rfl⟩⟩
      intro heq
      have := congrArg UInt64.toNat heq
      simp only at this
      omega
  | decrypting =>
    simp only at h
    split at h
    · cases h
    · rename_i hzero
      obtain rfl := Option.some.inj h
      have hpos : 0 < sector.toNat := by
        rw [← UInt64.toNat_inj] at hzero
        exact Nat.pos_of_ne_zero hzero
      obtain ⟨hcount, hsub⟩ := toNat_decryptBatch sector batchSectors
      refine ⟨⟨by simp only; omega, by simp only; omega, by simp only; omega, ?_⟩,
        .inr ⟨rfl, by simp only; omega, rfl, rfl⟩⟩
      intro heq
      have := congrArg UInt64.toNat heq
      simp only at this
      omega
  | idle => cases h
  | paused => cases h

theorem nextBatch_areaLaw {ss : Nat} (hc : LawfulCipher ss cipher) {b : Batch}
    (h : b.Encrypts cipher e.encryptedOffset ∨ b.Decrypts cipher e.encryptedOffset) : AreaLaw ss b.area b.sector := by
  rcases h with h | h
  · rw [h.area, h.sector]
    exact hc.encryptArea
  · rw [h.area, h.sector]
    exact hc.decryptArea

/-! ## What a batch does to the disk -/

/-- Sectors `[lba, lba + count)` of `d`, numbered from `start`, were replaced by their images under `f`. -/
structure Rewritten (f : UInt64 → Bytes → Bytes) (lba start count : Nat) (d d' : Device) : Prop where
  frame : Frame (fun l => lba ≤ l ∧ l < lba + count) d d'
  sector : ∀ k, k < count → d'.sector (lba + k) = f (UInt64.ofNat (start + k)) (d.sector (lba + k))

/-- Every sector of the batch can be read and written. -/
def Accessible (d : Device) (lba count : Nat) : Prop :=
  Reachable d d.readFault lba count ∧ Reachable d d.writeFault lba count

/-- A batch stops before the first change, or it rewrites its sectors and goes on to persist. -/
theorem batchStep_cases (S : EncryptedOffsetStore σ) (st : σ) (hss : 0 < d.ss) {b : Batch}
    (hlaw : AreaLaw d.ss b.area b.sector)
    (hfit : e.offsetSector.toNat + b.start.toNat + b.count.toNat ≤ d.sectors) :
    (¬ Accessible d (e.offsetSector.toNat + b.start.toNat) b.count.toNat ∧
      ∃ err, batchStep S b.area b.finished b.start b.count b.boundary e st d = (.error err, e, st, d)) ∨
    (Accessible d (e.offsetSector.toNat + b.start.toNat) b.count.toNat ∧
      ∃ d', Rewritten b.sector (e.offsetSector.toNat + b.start.toNat) b.start.toNat b.count.toNat d d' ∧
        batchStep S b.area b.finished b.start b.count b.boundary e st d =
          persist S b.finished (e.setBoundary b.boundary) st d') := by
  have haddr : d.sectors * d.ss < 2 ^ 64 := d.addressable
  have hsec : d.sectors < 2 ^ 64 := d.totalSectors.toNat_lt
  have habs : (e.offsetSector + b.start).toNat = e.offsetSector.toNat + b.start.toNat := by
    rw [UInt64.toNat_add, Nat.mod_eq_of_lt (by omega)]
  have hlen : b.count.toNat * d.sectorSize.toNat % 2 ^ 64 = b.count.toNat * d.ss := by
    apply Nat.mod_eq_of_lt
    have hle : b.count.toNat * d.ss ≤ d.sectors * d.ss := Nat.mul_le_mul_right _ (by omega)
    exact Nat.lt_of_le_of_lt hle haddr
  unfold batchStep
  simp only [hlen]
  by_cases hread : Reachable d d.readFault (e.offsetSector.toNat + b.start.toNat) b.count.toNat
  · rw [readSectors_of_reachable hss (by rw [habs]; exact hread), habs]
    simp only
    generalize hbuf :
      b.area (d.area (e.offsetSector.toNat + b.start.toNat) b.count.toNat) d.sectorSize.toNat b.start = buf
    have hbl : buf.length = b.count.toNat * d.ss := by
      rw [← hbuf]
      exact (hlaw.length _ _).trans (length_area ..)
    by_cases hwrite : Reachable d d.writeFault (e.offsetSector.toNat + b.start.toNat) b.count.toNat
    · right
      obtain ⟨d', hw⟩ : ∃ d', writeSectors d (e.offsetSector + b.start) buf = (.ok (), d') :=
        ⟨_, writeSectors_of_reachable hss hbl (by rw [habs]; exact hwrite)⟩
      have hframe := writeSectors_frame d (e.offsetSector + b.start) hbl
      have hsector := sector_writeSectors hbl hw
      rw [hw] at hframe ⊢
      rw [habs] at hframe hsector
      refine ⟨⟨hread, hwrite⟩, d', ⟨hframe, ?_⟩, rfl⟩
      intro k hk
      have hslice := hlaw.slice _ b.start k b.count.toNat
        (length_area d (e.offsetSector.toNat + b.start.toNat) b.count.toNat) hk
      rw [slice_area d hk] at hslice
      rw [hsector, if_pos (by omega), Nat.add_sub_cancel_left, ← hbuf, UInt64.ofNat_add, UInt64.ofNat_toNat]
      exact hslice
    · left
      have hw : writeSectors d (e.offsetSector + b.start) buf = (.error (.io "write_sectors failed"), d) := by
        rw [writeSectors, hbl, habs, if_neg]
        rw [reachable_iff d hss]
        exact hwrite
      refine ⟨fun h => hwrite h.2, .io "write_sectors failed", ?_⟩
      rw [hw]
  · left
    have hr : readSectors d (e.offsetSector + b.start) (b.count.toNat * d.ss) =
        .error (.io "read_sectors failed") := by
      rw [readSectors, habs, if_neg]
      rw [reachable_iff d hss]
      exact hread
    refine ⟨fun h => hread h.1, .io "read_sectors failed", ?_⟩
    rw [hr]

/-- Both store calls that follow a batch succeed. -/
def Persists (S : EncryptedOffsetStore σ) (e : EncryptionEngine) (st : σ) (d : Device) : Prop :=
  (S.store st d e.encryptedOffset).1 = .ok () ∧
    (S.flush (S.store st d e.encryptedOffset).2.1 (S.store st d e.encryptedOffset).2.2).1 = .ok ()

/-- Persisting keeps the boundary of the engine, whatever the store answers, and succeeds exactly when
both calls do. -/
theorem persist_cases (S : EncryptedOffsetStore σ) (finished : EncryptedOffset → Bool) (e : EncryptionEngine) (st : σ)
    (d : Device) :
    ∃ r state, persist S finished e st d =
        (r, { e with state }, if (S.store st d e.encryptedOffset).1 = .ok () then
          (S.flush (S.store st d e.encryptedOffset).2.1 (S.store st d e.encryptedOffset).2.2).2
        else (S.store st d e.encryptedOffset).2) ∧
      ((∃ more, r = .ok more) ↔ Persists S e st d) := by
  unfold persist Persists
  generalize S.store st d e.encryptedOffset = w
  obtain ⟨r₁, st₁, d₁⟩ := w
  cases r₁ with
  | error err => exact ⟨.error err, e.state, by simp, by simp⟩
  | ok u =>
    simp only
    generalize S.flush st₁ d₁ = w
    obtain ⟨r₂, st₂, d₂⟩ := w
    cases r₂ with
    | error err => exact ⟨.error err, e.state, by simp, by simp⟩
    | ok u =>
      simp only
      split
      · exact ⟨.ok false, .idle, by simp, by simp⟩
      · exact ⟨.ok true, e.state, by simp, by simp⟩

theorem persist_of_persists (finished : EncryptedOffset → Bool) (h : Persists S e st d) :
    (persist S finished e st d).2.2 =
      (S.flush (S.store st d e.encryptedOffset).2.1 (S.store st d e.encryptedOffset).2.2).2 := by
  obtain ⟨r, state, hcase, -⟩ := persist_cases S finished e st d
  rw [hcase]
  exact if_pos h.1

/-- Persisting stays outside the data region. -/
theorem persist_frame {data : Nat → Prop} {I : σ → Device → Prop} (hS : Confined S data I) (hI : I st d)
    (finished : EncryptedOffset → Bool) (e : EncryptionEngine) :
    Frame (¬ data ·) d (persist S finished e st d).2.2.2 ∧
      I (persist S finished e st d).2.2.1 (persist S finished e st d).2.2.2 := by
  obtain ⟨r, state, hcase, -⟩ := persist_cases S finished e st d
  obtain ⟨hframe, hI₁⟩ := hS.store e.encryptedOffset hI
  rw [hcase]
  simp only
  split
  · obtain ⟨hframe₂, hI₂⟩ := hS.flush hI₁
    exact ⟨hframe.trans hframe₂, hI₂⟩
  · exact ⟨hframe, hI₁⟩

end Batches

/-! ## The plain view -/

/-- Relative sector `rel` as a user should see it: decrypted below the boundary, raw from there on. -/
def plainSector (cipher : VolumeCipher) (offset boundary : Nat) (d : Device) (rel : Nat) : Bytes :=
  if rel < boundary then cipher.decryptSector (UInt64.ofNat rel) (d.sector (offset + rel)) else d.sector (offset + rel)

section PlainView

variable {cipher : VolumeCipher} {d d' : Device} {offset start count : Nat}

theorem plainSector_frame {S : Nat → Prop} (hf : Frame S d d') {boundary rel : Nat} (h : ¬ S (offset + rel)) :
    plainSector cipher offset boundary d' rel = plainSector cipher offset boundary d rel := by
  rw [plainSector, plainSector, hf.sector_eq h]

/-- Encrypting the sectors after the boundary and moving it behind them keeps the plain view. -/
theorem Rewritten.plainSector_encrypt (hc : LawfulCipher d.ss cipher)
    (h : Rewritten cipher.encryptSector (offset + start) start count d d') (rel : Nat) :
    plainSector cipher offset (start + count) d' rel = plainSector cipher offset start d rel := by
  by_cases hin : start ≤ rel ∧ rel < start + count
  · obtain ⟨k, rfl⟩ : ∃ k, rel = start + k := ⟨rel - start, by omega⟩
    rw [plainSector, if_pos hin.2, plainSector, if_neg (by omega), ← Nat.add_assoc, h.sector k (by omega)]
    exact hc.decrypt_encrypt _ _ (length_sector ..)
  · have hout : ¬ (offset + start ≤ offset + rel ∧ offset + rel < offset + start + count) := by omega
    rw [plainSector, plainSector, h.frame.sector_eq hout]
    by_cases hlt : rel < start
    · rw [if_pos hlt, if_pos (by omega)]
    · rw [if_neg hlt, if_neg (by omega)]

/-- Decrypting the sectors before the boundary and moving it before them keeps the plain view. -/
theorem Rewritten.plainSector_decrypt (h : Rewritten cipher.decryptSector (offset + start) start count d d')
    (rel : Nat) : plainSector cipher offset start d' rel = plainSector cipher offset (start + count) d rel := by
  by_cases hin : start ≤ rel ∧ rel < start + count
  · obtain ⟨k, rfl⟩ : ∃ k, rel = start + k := ⟨rel - start, by omega⟩
    rw [plainSector, if_neg (by omega), plainSector, if_pos hin.2, ← Nat.add_assoc, h.sector k (by omega)]
  · have hout : ¬ (offset + start ≤ offset + rel ∧ offset + rel < offset + start + count) := by omega
    rw [plainSector, plainSector, h.frame.sector_eq hout]
    by_cases hlt : rel < start
    · rw [if_pos hlt, if_pos (by omega)]
    · rw [if_neg hlt, if_neg (by omega)]

end PlainView

/-- A rewritten batch keeps the plain view under its new boundary. -/
theorem Batch.plainSector_eq {cipher : VolumeCipher} {d d' : Device} {o : EncryptedOffset} {b : Batch}
    (hc : LawfulCipher d.ss cipher) (hb : b.Encrypts cipher o ∨ b.Decrypts cipher o) {offset : Nat}
    (h : Rewritten b.sector (offset + b.start.toNat) b.start.toNat b.count.toNat d d') (rel : Nat) :
    plainSector cipher offset b.boundary.toNat d' rel = plainSector cipher offset o.sector.toNat d rel := by
  rcases hb with hb | hb
  · rw [hb.sector, hb.start] at h
    rw [hb.boundary]
    exact h.plainSector_encrypt hc rel
  · rw [hb.sector, hb.start] at h
    rw [← hb.boundary]
    exact h.plainSector_decrypt rel

end SweepEngine
