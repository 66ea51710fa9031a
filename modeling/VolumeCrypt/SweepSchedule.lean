import VolumeCrypt.SweepEngine

/-!
# Sweeps under any schedule

A schedule is a list of batches, pauses and starts. Where the device and the store answer every
call, a sweep in either direction rewrites each sector between its first and its last boundary
once, whatever the schedule, and every executed batch brings it nearer to its end.
-/
namespace SweepSchedule

open ByteString VckTypes SectorIo CipherTraits JvckLayout JvckStore JvckReplicas JvckRuns SweepEngine
open SweepEngine.EncryptionEngine

/-! ## Directions -/

/-- The engine state of a sweep in direction `v`. -/
def sweeping : VolumeState → EngineState
  | .encrypt => .encrypting
  | .decrypt => .decrypting

/-- What a sweep in direction `v` does to a sector. -/
def transform (cipher : VolumeCipher) : VolumeState → UInt64 → Bytes → Bytes
  | .encrypt => cipher.encryptSector
  | .decrypt => cipher.decryptSector

/-- The sectors that a sweep in direction `v` has before it. -/
def remaining (v : VolumeState) (o : EncryptedOffset) : Nat :=
  match v with
  | .encrypt => o.totalSectors.toNat - o.sector.toNat
  | .decrypt => o.sector.toNat

/-- `b` lies behind `b₀` for a sweep in direction `v`. -/
def Toward (v : VolumeState) (b₀ b : Nat) : Prop :=
  match v with
  | .encrypt => b₀ ≤ b
  | .decrypt => b ≤ b₀

theorem Toward.refl (v : VolumeState) (b : Nat) : Toward v b b := by
  cases v <;> exact Nat.le_refl b

/-- A batch of at most `batchSectors`, next to the boundary in direction `v`. -/
structure Advances (b : Batch) (v : VolumeState) (cipher : VolumeCipher) (batchSectors : UInt64)
    (o : EncryptedOffset) : Prop where
  count : b.count.toNat = min (remaining v o) (max batchSectors.toNat 1)
  low : b.start.toNat = min o.sector.toNat b.boundary.toNat
  high : b.start.toNat + b.count.toNat = max o.sector.toNat b.boundary.toNat
  toward : Toward v o.sector.toNat b.boundary.toNat
  rest : remaining v { o with sector := b.boundary } = remaining v o - b.count.toNat
  law : ∀ ss, LawfulCipher ss cipher → AreaLaw ss b.area (transform cipher v)
  sector : b.sector = transform cipher v
  finished : b.finished { o with sector := b.boundary } = true ↔ remaining v { o with sector := b.boundary } = 0

/-- In the sweeping state a batch is due while sectors remain. -/
theorem nextBatch_due {v : VolumeState} {cipher : VolumeCipher} {batchSectors : UInt64} {e : EncryptionEngine}
    (hstate : e.state = sweeping v) (hle : e.encryptedOffset.sector.toNat ≤ e.encryptedOffset.totalSectors.toNat)
    (hrem : 0 < remaining v e.encryptedOffset) :
    ∃ b, nextBatch cipher batchSectors e = some b ∧ b.Fits e.encryptedOffset ∧
      Advances b v cipher batchSectors e.encryptedOffset := by
  obtain ⟨offset, ⟨sector, total⟩, state⟩ := e
  simp only at hstate hle hrem
  subst hstate
  have hlt := total.toNat_lt
  cases v with
  | encrypt =>
    simp only [remaining] at hrem
    have hfull : ¬ EncryptedOffset.isFullyEncrypted ⟨sector, total⟩ = true := by
      simp only [EncryptedOffset.isFullyEncrypted, decide_eq_true_eq, ge_iff_le, UInt64.le_iff_toNat_le]
      omega
    have hnext : nextBatch cipher batchSectors ⟨offset, ⟨sector, total⟩, sweeping .encrypt⟩ =
        some ⟨sector, min (total - sector) (max batchSectors 1), sector + min (total - sector) (max batchSectors 1),
          cipher.encryptArea, cipher.encryptSector, EncryptedOffset.isFullyEncrypted⟩ := by
      simp only [nextBatch, sweeping, if_neg hfull]
    obtain ⟨hfits, -⟩ := nextBatch_cases hle hnext
    obtain ⟨hcount, hsum⟩ := toNat_encryptBatch batchSectors hle
    refine ⟨_, hnext, hfits, ⟨hcount, ?_, ?_, ?_, ?_, fun ss h => h.encryptArea, rfl, ?_⟩⟩
    · simp only
      omega
    · simp only
      omega
    · simp only [Toward]
      omega
    · simp only [remaining]
      omega
    · simp only [EncryptedOffset.isFullyEncrypted, decide_eq_true_eq, ge_iff_le, UInt64.le_iff_toNat_le, remaining]
      omega
  | decrypt =>
    simp only [remaining] at hrem
    have hzero : ¬ sector = 0 := by
      rintro rfl
      exact absurd hrem (by decide)
    have hnext : nextBatch cipher batchSectors ⟨offset, ⟨sector, total⟩, sweeping .decrypt⟩ =
        some ⟨sector - min sector (max batchSectors 1), min sector (max batchSectors 1),
          sector - min sector (max batchSectors 1), cipher.decryptArea, cipher.decryptSector,
          fun o => o.sector == 0⟩ := by
      simp only [nextBatch, sweeping, if_neg hzero]
    obtain ⟨hfits, -⟩ := nextBatch_cases hle hnext
    obtain ⟨hcount, hsub⟩ := toNat_decryptBatch sector batchSectors
    refine ⟨_, hnext, hfits, ⟨hcount, ?_, ?_, ?_, ?_, fun ss h => h.decryptArea, rfl, ?_⟩⟩
    · simp only
      omega
    · simp only
      omega
    · simp only [Toward]
      omega
    · simp only [remaining]
      omega
    · simp only [beq_iff_eq, remaining, ← UInt64.toNat_inj]
      rfl

/-! ## Environments in which every call succeeds -/

/-- While `I` holds the store accepts every boundary inside the region and stays off `data`. -/
structure Reliable {σ : Type} (S : EncryptedOffsetStore σ) (data : Nat → Prop) (I : σ → Device → Prop) : Prop
    extends Confined S data I where
  store_ok : ∀ {st d} (o : EncryptedOffset), I st d → o.sector.toNat ≤ o.totalSectors.toNat →
    (S.store st d o).1 = .ok ()
  flush_ok : ∀ {st d}, I st d → (S.flush st d).1 = .ok ()

theorem Accessible.frame {T : Nat → Prop} {d d' : Device} {lba count : Nat} (h : Accessible d lba count)
    (hf : Frame T d d') : Accessible d' lba count := by
  unfold Accessible Reachable
  rw [hf.readFault, hf.writeFault, hf.sectors]
  exact h

section Persisting

variable {σ : Type} {S : EncryptedOffsetStore σ} {data : Nat → Prop} {I : σ → Device → Prop}

/-- The end of a batch, when the store answers. -/
theorem persist_of_reliable (hS : Reliable S data I) {st : σ} {d : Device} (hI : I st d)
    (finished : EncryptedOffset → Bool)
    {e : EncryptionEngine} (hle : e.encryptedOffset.sector.toNat ≤ e.encryptedOffset.totalSectors.toNat) :
    ∃ st' d', persist S finished e st d =
        (.ok (!finished e.encryptedOffset), if finished e.encryptedOffset then { e with state := .idle } else e, st', d') ∧
      Frame (¬ data ·) d d' ∧ I st' d' := by
  obtain ⟨hframe, hinv⟩ := persist_frame hS.toConfined hI finished e
  have hstore := hS.store_ok e.encryptedOffset hI hle
  have hflush := hS.flush_ok (hS.store e.encryptedOffset hI).2
  refine ⟨_, _, ?_, hframe, hinv⟩
  simp only [persist]
  generalize S.store st d e.encryptedOffset = w at hstore hflush ⊢
  obtain ⟨r₁, st₁, d₁⟩ := w
  simp only at hstore
  subst hstore
  simp only at hflush ⊢
  generalize S.flush st₁ d₁ = w at hflush ⊢
  obtain ⟨r₂, st₂, d₂⟩ := w
  simp only at hflush
  subst hflush
  cases finished e.encryptedOffset <;> rfl

end Persisting

/-! ## Schedules -/

/-- A sweep in progress; `steps` counts the batches executed in the sweeping state. -/
structure Sweep (σ : Type) where
  engine : EncryptionEngine
  store : σ
  device : Device
  steps : Nat

def Sweep.boundary {σ : Type} (s : Sweep σ) : Nat := s.engine.encryptedOffset.sector.toNat

def Sweep.total {σ : Type} (s : Sweep σ) : Nat := s.engine.encryptedOffset.totalSectors.toNat

def Sweep.offset {σ : Type} (s : Sweep σ) : Nat := s.engine.offsetSector.toNat

/-- The sectors that a sweep in direction `v` still has to do. -/
def Sweep.left {σ : Type} (s : Sweep σ) (v : VolumeState) : Nat := remaining v s.engine.encryptedOffset

inductive Op where
  | batch (batchSectors : UInt64)
  | pause
  | start
  deriving DecidableEq, Repr

section Schedules

variable {σ : Type} (S : EncryptedOffsetStore σ) (cipher : VolumeCipher) (v : VolumeState)

/-- One call on the engine of a sweep in direction `v`; `none` if it fails. -/
def sweepOp (s : Sweep σ) : Op → Option (Sweep σ)
  | .batch batchSectors =>
    match progressStep S cipher batchSectors s.engine s.store s.device with
    | (.ok _, e, st, d) => some ⟨e, st, d, if s.engine.state = sweeping v then s.steps + 1 else s.steps⟩
    | (.error _, _) => none
  | .pause => some { s with engine := s.engine.pause }
  | .start =>
    match v with
    | .encrypt =>
      let (e, st, d) := s.engine.startEncrypt S s.store s.device
      some ⟨e, st, d, s.steps⟩
    | .decrypt =>
      let (e, st, d) := s.engine.startDecrypt S s.store s.device
      some ⟨e, st, d, s.steps⟩

variable (data : Nat → Prop) (I : σ → Device → Prop)

/-- A sweep whose region can be read and written, in a state that direction `v` can be in. -/
structure Ready (s : Sweep σ) : Prop where
  region : ∀ r, r < s.total → data (s.offset + r)
  accessible : Accessible s.device s.offset s.total
  sectorSize : 0 < s.device.ss
  lawful : LawfulCipher s.device.ss cipher
  inv : I s.store s.device
  bounded : s.boundary ≤ s.total
  state : s.engine.state = .idle ∨
    (s.engine.state = .paused ∨ s.engine.state = sweeping v) ∧ 0 < s.left v

/-- From `s₀` to `s` every sector between the two boundaries was rewritten once and no other sector of
`data` was touched. -/
structure Swept (s₀ s : Sweep σ) : Prop where
  offset : s.offset = s₀.offset
  total : s.total = s₀.total
  sectorSize : s.device.ss = s₀.device.ss
  toward : Toward v s₀.boundary s.boundary
  disk : ∀ l, data l → s.device.sector l =
    if s₀.offset + min s₀.boundary s.boundary ≤ l ∧ l < s₀.offset + max s₀.boundary s.boundary then
      transform cipher v (UInt64.ofNat (l - s₀.offset)) (s₀.device.sector l)
    else s₀.device.sector l

/-- An operation executes a batch of the sweep or leaves the boundary where it is. -/
def Counted (op : Op) (s s' : Sweep σ) : Prop :=
  (s'.steps = s.steps ∧ s'.boundary = s.boundary ∧ s'.left v = s.left v ∧
      (s.engine.state = sweeping v → ∀ n, op ≠ .batch n)) ∨
    ∃ n, op = .batch n ∧ s.engine.state = sweeping v ∧ s'.steps = s.steps + 1 ∧
      s'.left v = s.left v - min (s.left v) (max n.toNat 1)

end Schedules

section Steps

variable {σ : Type} {S : EncryptedOffsetStore σ} {cipher : VolumeCipher} {v : VolumeState} {data : Nat → Prop}
  {I : σ → Device → Prop} {s s₀ s₁ s₂ : Sweep σ}

theorem Swept.of_boundary (ho : s.offset = s₀.offset) (ht : s.total = s₀.total) (hb : s.boundary = s₀.boundary)
    (hf : Frame (¬ data ·) s₀.device s.device) : Swept cipher v data s₀ s := by
  refine ⟨ho, ht, hf.ss, hb ▸ Toward.refl v _, ?_⟩
  intro l hl
  rw [hb, if_neg (by omega)]
  exact hf.sector_eq (not_not.mpr hl)

theorem Swept.refl (s : Sweep σ) : Swept cipher v data s s :=
  .of_boundary rfl rfl rfl (.refl _ _)

/-- Two sweeps one after the other rewrite adjacent ranges. -/
theorem Swept.trans (h₁ : Swept cipher v data s₀ s₁) (h₂ : Swept cipher v data s₁ s₂) : Swept cipher v data s₀ s₂ := by
  have ho := h₁.offset
  have ht₁ := h₁.toward
  have ht₂ := h₂.toward
  refine ⟨h₂.offset.trans ho, h₂.total.trans h₁.total, h₂.sectorSize.trans h₁.sectorSize, ?_, ?_⟩
  · cases v <;> simp only [Toward] at ht₁ ht₂ ⊢ <;> omega
  · intro l hl
    rw [h₂.disk l hl, h₁.disk l hl, ho]
    cases v <;> simp only [Toward] at ht₁ ht₂ <;> grind

/-- A sweep that is not idle has sectors before it. -/
theorem Ready.left_pos (h : Ready cipher v data I s) (hstate : s.engine.state = sweeping v) : 0 < s.left v := by
  rcases h.state with hidle | hrun
  · rw [hstate] at hidle
    cases v <;> cases hidle
  · exact hrun.2

/-- The state in which a batch leaves a sweep that has `n` sectors before it. -/
def stateAfter (v : VolumeState) (n : Nat) : EngineState := if 0 < n then sweeping v else .idle

theorem stateAfter_cases (v : VolumeState) (n : Nat) :
    stateAfter v n = .idle ∨ (stateAfter v n = .paused ∨ stateAfter v n = sweeping v) ∧ 0 < n := by
  rw [stateAfter]
  split
  · rename_i h
    exact .inr ⟨.inr rfl, h⟩
  · exact .inl rfl

/-- The engine after a batch: idle once nothing is left. -/
theorem finish_batch {b : Batch} {n : UInt64} (hstate : s.engine.state = sweeping v)
    (hadv : Advances b v cipher n s.engine.encryptedOffset) :
    (!b.finished (s.engine.setBoundary b.boundary).encryptedOffset) =
        decide (0 < remaining v { s.engine.encryptedOffset with sector := b.boundary }) ∧
      (if b.finished (s.engine.setBoundary b.boundary).encryptedOffset then
          { s.engine.setBoundary b.boundary with state := .idle }
        else s.engine.setBoundary b.boundary) =
        { s.engine.setBoundary b.boundary with
          state := stateAfter v (remaining v { s.engine.encryptedOffset with sector := b.boundary }) } := by
  have hfin := hadv.finished
  by_cases hb : b.finished { s.engine.encryptedOffset with sector := b.boundary } = true
  · have hzero := hfin.mp hb
    refine ⟨by simp [setBoundary, hb, hzero], (if_pos hb).trans ?_⟩
    rw [hzero]
    rfl
  · have hpos := Nat.pos_of_ne_zero fun hzero => hb (hfin.mpr hzero)
    refine ⟨by simpa [setBoundary, hpos] using hb, (if_neg hb).trans ?_⟩
    rw [stateAfter, if_pos hpos, ← hstate]
    rfl

/-- What a rewritten batch did, in terms of the two boundaries. -/
theorem Advances.sector_eq {b : Batch} {n : UInt64} {o : EncryptedOffset} {offset : Nat} {d d' : Device}
    (hadv : Advances b v cipher n o)
    (h : Rewritten b.sector (offset + b.start.toNat) b.start.toNat b.count.toNat d d') (l : Nat) :
    d'.sector l =
      if offset + min o.sector.toNat b.boundary.toNat ≤ l ∧ l < offset + max o.sector.toNat b.boundary.toNat then
        transform cipher v (UInt64.ofNat (l - offset)) (d.sector l)
      else d.sector l := by
  rw [← hadv.low, ← hadv.high, ← hadv.sector]
  split
  · rename_i hl
    obtain ⟨k, rfl⟩ : ∃ k, l = offset + b.start.toNat + k := ⟨l - (offset + b.start.toNat), by omega⟩
    rw [h.sector k (by omega), show offset + b.start.toNat + k - offset = b.start.toNat + k by omega]
  · rename_i hl
    exact h.frame.sector_eq (by omega)

/-- A batch in the sweeping state rewrites the next sectors, and answers whether any are left. -/
theorem Ready.batch (hS : Reliable S data I) (h : Ready cipher v data I s) (hstate : s.engine.state = sweeping v)
    (n : UInt64) (k : Nat) :
    ∃ e st d, progressStep S cipher n s.engine s.store s.device =
        (.ok (decide (0 < remaining v e.encryptedOffset)), e, st, d) ∧
      Ready cipher v data I ⟨e, st, d, k⟩ ∧ Swept cipher v data s ⟨e, st, d, k⟩ ∧
      remaining v e.encryptedOffset = s.left v - min (s.left v) (max n.toNat 1) ∧
      e.state = stateAfter v (remaining v e.encryptedOffset) := by
  have hpos := h.left_pos hstate
  have hbound : s.engine.encryptedOffset.sector.toNat ≤ s.engine.encryptedOffset.totalSectors.toNat := h.bounded
  obtain ⟨b, hnext, hfits, hadv⟩ : ∃ b, nextBatch cipher n s.engine = some b ∧ b.Fits s.engine.encryptedOffset ∧
      Advances b v cipher n s.engine.encryptedOffset := nextBatch_due hstate hbound hpos
  have hwithin := hfits.within
  have hlaw : AreaLaw s.device.ss b.area b.sector := by
    rw [hadv.sector]
    exact hadv.law _ h.lawful
  have hfit : s.engine.offsetSector.toNat + b.start.toNat + b.count.toNat ≤ s.device.sectors := by
    have hlast : s.engine.offsetSector.toNat + s.engine.encryptedOffset.totalSectors.toNat ≤ s.device.sectors :=
      h.accessible.1.1
    omega
  have hacc : Accessible s.device (s.engine.offsetSector.toNat + b.start.toNat) b.count.toNat := by
    obtain ⟨⟨_, hr⟩, ⟨_, hw⟩⟩ := h.accessible
    refine ⟨⟨hfit, ?_⟩, ⟨hfit, ?_⟩⟩
    · intro i hi
      rw [Nat.add_assoc]
      exact hr _ (Nat.lt_of_lt_of_le (Nat.add_lt_add_left hi _) hwithin)
    · intro i hi
      rw [Nat.add_assoc]
      exact hw _ (Nat.lt_of_lt_of_le (Nat.add_lt_add_left hi _) hwithin)
  rcases batchStep_cases S s.store h.sectorSize hlaw hfit with ⟨hno, -⟩ | ⟨-, d₁, hrew, hstep⟩
  · exact absurd hacc hno
  have hdata : Frame data s.device d₁ := by
    apply hrew.frame.mono
    intro l hl
    obtain ⟨r, rfl⟩ : ∃ r, l = s.engine.offsetSector.toNat + r :=
      ⟨l - s.engine.offsetSector.toNat, by omega⟩
    exact h.region r (Nat.lt_of_lt_of_le (by omega) hwithin)
  obtain ⟨st', d', hpersist, hframe, hinv⟩ :=
    persist_of_reliable hS (hS.frame h.inv hdata) b.finished (e := s.engine.setBoundary b.boundary) hfits.bounded
  rw [progressStep_of_some S s.store s.device hnext, hstep, hpersist]
  obtain ⟨hmore, hengine⟩ := finish_batch hstate hadv
  rw [hengine, hmore]
  have hrest := hadv.rest
  rw [hadv.count] at hrest
  refine ⟨{ s.engine.setBoundary b.boundary with state := _ }, st', d', rfl, ?_, ?_, hrest, rfl⟩
  · have hf := hdata.mono (T := fun _ => True) fun _ _ => trivial
    have hf' := hf.trans (hframe.mono fun _ _ => trivial)
    exact ⟨h.region, Accessible.frame h.accessible hf', hf'.ss ▸ h.sectorSize, hf'.ss ▸ h.lawful, hinv, hfits.bounded,
      stateAfter_cases v _⟩
  · refine ⟨rfl, rfl, (hframe.ss).trans hdata.ss, hadv.toward, ?_⟩
    intro l hl
    rw [hframe.sector_eq (not_not.mpr hl)]
    exact hadv.sector_eq hrew l

theorem Ready.idle_batch (h : Ready cipher v data I s) (hstate : s.engine.state ≠ sweeping v) (n : UInt64) :
    progressStep S cipher n s.engine s.store s.device = (.ok false, s.engine, s.store, s.device) := by
  rcases h.state with hidle | ⟨hpaused | hrun, -⟩
  · simp only [progressStep, hidle]
  · simp only [progressStep, hpaused]
  · exact absurd hrun hstate

theorem Ready.pause (h : Ready cipher v data I s) : Ready cipher v data I { s with engine := s.engine.pause } := by
  obtain ⟨⟨offset, o, state⟩, st, d, k⟩ := s
  cases state with
  | idle => exact h
  | paused => exact h
  | encrypting =>
    refine ⟨h.region, h.accessible, h.sectorSize, h.lawful, h.inv, h.bounded, .inr ⟨.inl rfl, ?_⟩⟩
    rcases h.state with hidle | hrun
    · cases hidle
    · exact hrun.2
  | decrypting =>
    refine ⟨h.region, h.accessible, h.sectorSize, h.lawful, h.inv, h.bounded, .inr ⟨.inl rfl, ?_⟩⟩
    rcases h.state with hidle | hrun
    · cases hidle
    · exact hrun.2

/-- Starting asks the same question as the end of a batch: is anything left? -/
theorem startState_eq (e : EncryptionEngine) (v : VolumeState) :
    e.startState v = stateAfter v (remaining v e.encryptedOffset) := by
  have hzero : e.encryptedOffset.sector > 0 ↔ 0 < e.encryptedOffset.sector.toNat := by
    rw [gt_iff_lt, UInt64.lt_iff_toNat_lt]
    rfl
  by_cases hpos : 0 < remaining v e.encryptedOffset
  · rw [stateAfter, if_pos hpos]
    cases v <;> simp only [remaining] at hpos
    · exact if_neg (by simp [EncryptedOffset.isFullyEncrypted, UInt64.lt_iff_toNat_lt]; omega)
    · exact if_pos (hzero.mpr hpos)
  · rw [stateAfter, if_neg hpos]
    cases v <;> simp only [remaining] at hpos
    · exact if_pos (by simp [EncryptedOffset.isFullyEncrypted, UInt64.le_iff_toNat_le]; omega)
    · exact if_neg (fun h => hpos (hzero.mp h))

/-- Every call on a ready sweep succeeds and leaves it ready. -/
theorem Ready.call (hS : Reliable S data I) (h : Ready cipher v data I s) (op : Op) :
    ∃ s', sweepOp S cipher v s op = some s' ∧ Ready cipher v data I s' ∧ Swept cipher v data s s' ∧
      Counted v op s s' := by
  cases op with
  | batch n =>
    by_cases hstate : s.engine.state = sweeping v
    · obtain ⟨e, st, d, hstep, hready, hswept, hleft, -⟩ := h.batch hS hstate n (s.steps + 1)
      refine ⟨⟨e, st, d, s.steps + 1⟩, ?_, hready, hswept, .inr ⟨n, rfl, hstate, rfl, hleft⟩⟩
      simp only [sweepOp, hstep, if_pos hstate]
    · refine ⟨s, ?_, h, .refl s, .inl ⟨rfl, rfl, rfl, fun hs => absurd hs hstate⟩⟩
      simp only [sweepOp, h.idle_batch hstate, if_neg hstate]
  | pause =>
    have hoff : s.engine.pause.encryptedOffset = s.engine.encryptedOffset ∧
        s.engine.pause.offsetSector = s.engine.offsetSector := by
      unfold EncryptionEngine.pause
      split <;> exact ⟨rfl, rfl⟩
    refine ⟨_, rfl, h.pause, .of_boundary ?_ ?_ ?_ (.refl _ _), .inl ⟨rfl, ?_, ?_, by simp⟩⟩
    · simp [Sweep.offset, hoff]
    · simp [Sweep.total, hoff]
    · simp [Sweep.boundary, hoff]
    · simp [Sweep.boundary, hoff]
    · simp [Sweep.left, hoff]
  | start =>
    obtain ⟨hframe, hinv⟩ := hS.storeState v h.inv
    refine ⟨⟨{ s.engine with state := s.engine.startState v }, (S.storeState s.store s.device v).2.1,
      (S.storeState s.store s.device v).2.2, s.steps⟩, ?_, ?_, .of_boundary rfl rfl rfl hframe,
      .inl ⟨rfl, rfl, rfl, by simp⟩⟩
    · cases v <;> rfl
    · refine ⟨h.region, Accessible.frame h.accessible hframe, hframe.ss ▸ h.sectorSize, hframe.ss ▸ h.lawful, hinv,
        h.bounded, ?_⟩
      have hst := startState_eq s.engine v
      simp only [hst]
      exact stateAfter_cases v _

/-! ## Runs -/

/-- Every schedule can be run to its end, and each executed batch is paid for by a sector. -/
theorem Ready.run (hS : Reliable S data I) (h : Ready cipher v data I s) (ops : List Op) :
    ∃ s', StepRun.run (sweepOp S cipher v) s ops = some s' ∧ Ready cipher v data I s' ∧
      Swept cipher v data s s' ∧ s.steps ≤ s'.steps ∧ s'.steps + s'.left v ≤ s.steps + s.left v := by
  induction ops generalizing s with
  | nil => exact ⟨s, rfl, h, .refl s, Nat.le_refl _, Nat.le_refl _⟩
  | cons op ops ih =>
    obtain ⟨s₁, hop, hready, hswept, hcount⟩ := h.call hS op
    obtain ⟨s₂, hrun, hready₂, hswept₂, hle, hpaid⟩ := ih hready
    refine ⟨s₂, StepRun.run_cons_eq_some.mpr ⟨s₁, hop, hrun⟩, hready₂, hswept.trans hswept₂, ?_⟩
    rcases hcount with ⟨hsteps, -, hleft, -⟩ | ⟨n, -, hstate, hsteps, hleft⟩
    · omega
    · have hpos := h.left_pos hstate
      omega

/-- With batches of `b` sectors the number of executed batches tells how far the sweep is. -/
theorem Ready.run_uniform (hS : Reliable S data I) (h : Ready cipher v data I s) {b : Nat} {ops : List Op}
    (hb : ∀ n, Op.batch n ∈ ops → n.toNat = b) (hpos : 1 ≤ b) {s' : Sweep σ}
    (hrun : StepRun.run (sweepOp S cipher v) s ops = some s') :
    ∃ k, s'.steps = s.steps + k ∧ s'.left v = s.left v - k * b ∧ (k = 0 ∨ (k - 1) * b < s.left v) := by
  induction ops generalizing s with
  | nil =>
    obtain rfl := Option.some.inj hrun
    exact ⟨0, rfl, by simp, .inl rfl⟩
  | cons op ops ih =>
    obtain ⟨s₁, hop, hready, -, hcount⟩ := h.call hS op
    obtain ⟨t, ht, hrest⟩ := StepRun.run_cons_eq_some.mp hrun
    obtain rfl := Option.some.inj (hop.symm.trans ht)
    obtain ⟨k, hsteps, hleft, hlast⟩ := ih hready (fun n hn => hb n (.tail _ hn)) hrest
    rcases hcount with ⟨hsteps₁, -, hleft₁, -⟩ | ⟨n, rfl, hstate, hsteps₁, hleft₁⟩
    · rw [hleft₁] at hleft hlast
      exact ⟨k, by omega, hleft, hlast⟩
    · have hone := h.left_pos hstate
      have hn : n.toNat = b := hb n (.head _)
      rw [hn] at hleft₁
      refine ⟨k + 1, by omega, ?_, .inr ?_⟩
      · rw [hleft, hleft₁, Nat.succ_mul]
        omega
      · rw [Nat.add_sub_cancel]
        cases k with
        | zero => simpa using hone
        | succ j =>
          rcases hlast with hzero | hlast
          · cases hzero
          · rw [Nat.add_sub_cancel] at hlast
            rw [Nat.succ_mul]
            omega

/-- Batches alone, as many as there are sectors, bring a started sweep to its end. -/
theorem Ready.run_batches (hS : Reliable S data I) (h : Ready cipher v data I s) {ns : List UInt64}
    (hstate : s.engine.state = stateAfter v (s.left v)) (hlen : s.left v ≤ ns.length) {s' : Sweep σ}
    (hrun : StepRun.run (sweepOp S cipher v) s (ns.map Op.batch) = some s') :
    s'.engine.state = .idle ∧ s'.left v = 0 := by
  induction ns generalizing s with
  | nil =>
    obtain rfl := Option.some.inj hrun
    have hzero : s.left v = 0 := by simpa using hlen
    rw [hzero] at hstate
    exact ⟨hstate, hzero⟩
  | cons n ns ih =>
    obtain ⟨t, ht, hrest⟩ := StepRun.run_cons_eq_some.mp hrun
    simp only [List.length_cons] at hlen
    by_cases hpos : 0 < s.left v
    · rw [stateAfter, if_pos hpos] at hstate
      obtain ⟨e, st, d, hstep, hready, -, hleft, hstate'⟩ := h.batch hS hstate n (s.steps + 1)
      simp only [sweepOp, hstep, if_pos hstate] at ht
      obtain rfl := Option.some.inj ht
      refine ih hready hstate' ?_ hrest
      have : (⟨e, st, d, s.steps + 1⟩ : Sweep σ).left v = _ := hleft
      omega
    · have hzero : s.left v = 0 := by omega
      rw [hzero] at hstate
      have hne : s.engine.state ≠ sweeping v := by
        rw [hstate]
        cases v <;> simp [stateAfter, sweeping]
      simp only [sweepOp, h.idle_batch hne, if_neg hne] at ht
      obtain rfl := Option.some.inj ht
      exact ih h (by rw [hzero]; exact hstate) (by omega) hrest

/-- `k` batches of `b` cover `n` sectors, the last of them not in vain, exactly for the rounded-up quotient. -/
theorem covered_iff_ceil {n b k : Nat} (hb : 1 ≤ b) (hlast : k = 0 ∨ (k - 1) * b < n) :
    n - k * b = 0 ↔ k = (n + b - 1) / b := by
  constructor
  · intro hz
    symm
    apply Nat.div_eq_of_lt_le
    · cases k with
      | zero => simp
      | succ j =>
        rcases hlast with h | h
        · cases h
        · rw [Nat.add_sub_cancel] at h
          rw [Nat.succ_mul]
          omega
    · rw [Nat.succ_mul]
      omega
  · intro hk
    have hlt := Nat.lt_mul_div_succ (n + b - 1) hb
    rw [← hk, Nat.mul_comm, Nat.succ_mul] at hlt
    omega

end Steps

/-! ## The whole sweep -/

section Whole

variable {σ : Type} (S : EncryptedOffsetStore σ) (cipher : VolumeCipher) (v : VolumeState)

/-- What a schedule from `s₀` to `s` guarantees in direction `v`. -/
structure Progresses (s₀ : Sweep σ) (ops : List Op) (s : Sweep σ) : Prop where
  /-- The boundary stays inside the region and moves one way only, now and later. -/
  bounded : s.boundary ≤ s.total
  toward : Toward v s₀.boundary s.boundary
  monotone : ∀ more s', StepRun.run (sweepOp S cipher v) s more = some s' → Toward v s.boundary s'.boundary
  /-- A batch in the sweeping state answers whether sectors remain; any other changes nothing. -/
  answers : s.engine.state = sweeping v → ∀ n, ∃ e st d,
    progressStep S cipher n s.engine s.store s.device = (.ok (decide (0 < remaining v e.encryptedOffset)), e, st, d)
  rests : s.engine.state = .paused ∨ s.engine.state = .idle → ∀ n,
    progressStep S cipher n s.engine s.store s.device = (.ok false, s.engine, s.store, s.device)
  /-- Finitely many batches are executed, and the engine is idle when nothing is left. -/
  finite : s.steps + s.left v ≤ s₀.steps + s₀.left v
  done : s.left v = 0 → s.engine.state = .idle
  ends : s.engine.state = sweeping v → ∀ ns : List UInt64, s.left v ≤ ns.length → ∃ s',
    StepRun.run (sweepOp S cipher v) s (ns.map .batch) = some s' ∧ s'.engine.state = .idle ∧ s'.left v = 0
  exact : ∀ b, 1 ≤ b → (∀ n, Op.batch n ∈ ops → n.toNat = b) →
    (s.left v = 0 ↔ s.steps - s₀.steps = (s₀.left v + b - 1) / b)

variable {S cipher v} {data : Nat → Prop} {I : σ → Device → Prop}

theorem Ready.progresses {s₀ : Sweep σ} (hS : Reliable S data I) (h : Ready cipher v data I s₀) (ops : List Op) :
    ∃ s, StepRun.run (sweepOp S cipher v) s₀ ops = some s ∧ Ready cipher v data I s ∧ Swept cipher v data s₀ s ∧
      Progresses S cipher v s₀ ops s := by
  obtain ⟨s, hrun, hready, hswept, hle, hpaid⟩ := h.run hS ops
  refine ⟨s, hrun, hready, hswept, ?_⟩
  constructor
  · exact hready.bounded
  · exact hswept.toward
  · intro more s' hmore
    obtain ⟨s'', hrun', -, hswept', -⟩ := hready.run hS more
    obtain rfl := Option.some.inj (hrun'.symm.trans hmore)
    exact hswept'.toward
  · intro hstate n
    obtain ⟨e, st, d, hstep, -⟩ := hready.batch hS hstate n 0
    exact ⟨e, st, d, hstep⟩
  · intro hstate n
    apply hready.idle_batch
    cases v <;> rcases hstate with hs | hs <;> simp [hs, sweeping]
  · exact hpaid
  · intro hzero
    rcases hready.state with hidle | hrun
    · exact hidle
    · omega
  · intro hstate ns hlen
    obtain ⟨s', hrun', -⟩ := hready.run hS (ns.map Op.batch)
    have hpos := hready.left_pos hstate
    refine ⟨s', hrun', hready.run_batches hS ?_ hlen hrun'⟩
    rw [hstate, stateAfter, if_pos hpos]
  · intro b hb hall
    obtain ⟨k, hk, hleft, hlast⟩ := h.run_uniform hS hall hb hrun
    rw [hleft, hk, Nat.add_sub_cancel_left]
    exact covered_iff_ceil hb hlast

/-- Sector by sector and as one area, the same rewriting. -/
theorem area_of_sectors {ss : Nat} {d d' : Device} {area : Bytes → Nat → UInt64 → Bytes}
    {f : UInt64 → Bytes → Bytes} (hss : 0 < ss) (hd : d.ss = ss) (hd' : d'.ss = ss) (hlaw : AreaLaw ss area f)
    {offset count : Nat} {first : UInt64}
    (h : ∀ r, first.toNat ≤ r → r < first.toNat + count →
      d'.sector (offset + r) = f (UInt64.ofNat r) (d.sector (offset + r))) :
    d'.area (offset + first.toNat) count = area (d.area (offset + first.toNat) count) ss first := by
  subst hd
  have hlen := length_area d (offset + first.toNat) count
  apply eq_of_sectors hss (n := count)
  · rw [length_area, hd']
  · rw [hlaw.length, hlen]
  · intro k hk
    have hslice : slice (d'.area (offset + first.toNat) count) (k * d'.ss) d'.ss =
        d'.sector (offset + first.toNat + k) := slice_area d' hk
    rw [hd'] at hslice
    have hsector := h (first.toNat + k) (by omega) (by omega)
    rw [UInt64.ofNat_add, UInt64.ofNat_toNat, ← Nat.add_assoc] at hsector
    rw [hslice, hlaw.slice _ _ k count hlen hk, slice_area d hk]
    exact hsector

/-- A freshly attached volume with the boundary where the store left it. -/
def attach (offsetSector boundary totalSectors : UInt64) (st : σ) (d : Device) : Sweep σ :=
  ⟨EncryptionEngine.new offsetSector ⟨boundary, totalSectors⟩, st, d, 0⟩

/-- A decrypt sweep over what an encrypt sweep has done gives the sectors back. -/
theorem Swept.restores {s₀ s₁ s₂ : Sweep σ} (hc : LawfulCipher s₀.device.ss cipher)
    (h₁ : Swept cipher .encrypt data s₀ s₁) (h₂ : Swept cipher .decrypt data s₁ s₂) (hzero : s₂.boundary = 0)
    (hdata : ∀ r, r < s₀.total → data (s₀.offset + r)) {r : Nat} (hr : s₀.boundary ≤ r) (hr₁ : r < s₁.boundary)
    (hlt : r < s₀.total) : s₂.device.sector (s₀.offset + r) = s₀.device.sector (s₀.offset + r) := by
  have hl := hdata r hlt
  have ho := h₁.offset
  rw [h₂.disk _ hl, if_pos (by omega), h₁.disk _ hl, if_pos (by omega), ho, Nat.add_sub_cancel_left]
  exact hc.decrypt_encrypt _ _ (length_sector ..)

/-- Whatever the batches, pauses and starts, an encrypt sweep encrypts `[b₀, t)` once, each sector under its
own number, and a decrypt sweep from there gives the sectors back. -/
theorem sweep_any_schedule (hS : Reliable S data I) {offset b₀ t : UInt64} {st : σ} {d : Device}
    (hb : b₀.toNat ≤ t.toNat) (hregion : ∀ r, r < t.toNat → data (offset.toNat + r))
    (hio : Accessible d offset.toNat t.toNat) (hss : 0 < d.ss) (hc : LawfulCipher d.ss cipher) (hI : I st d)
    (ops : List Op) :
    ∃ s, StepRun.run (sweepOp S cipher .encrypt) (attach offset b₀ t st d) ops = some s ∧
      Progresses S cipher .encrypt (attach offset b₀ t st d) ops s ∧
      (s.boundary = t.toNat →
        s.device.area (offset.toNat + b₀.toNat) (t.toNat - b₀.toNat) =
          cipher.encryptArea (d.area (offset.toNat + b₀.toNat) (t.toNat - b₀.toNat)) d.ss b₀ ∧
        (∀ l, data l → ¬ (offset.toNat + b₀.toNat ≤ l ∧ l < offset.toNat + t.toNat) →
          s.device.sector l = d.sector l) ∧
        ∀ ops', ∃ s', StepRun.run (sweepOp S cipher .decrypt) { s with steps := 0 } ops' = some s' ∧
          Progresses S cipher .decrypt { s with steps := 0 } ops' s' ∧
          (∀ l, data l → ¬ (offset.toNat ≤ l ∧ l < offset.toNat + t.toNat) → s'.device.sector l = d.sector l) ∧
          (s'.boundary = 0 → ∀ r, b₀.toNat ≤ r → r < t.toNat →
            s'.device.sector (offset.toNat + r) = d.sector (offset.toNat + r))) := by
  have hready : Ready cipher .encrypt data I (attach offset b₀ t st d) :=
    ⟨hregion, hio, hss, hc, hI, hb, .inl rfl⟩
  obtain ⟨s, hrun, hready₁, hswept, hprog⟩ := hready.progresses hS ops
  refine ⟨s, hrun, hprog, ?_⟩
  intro hend
  have hoff : s.offset = offset.toNat := hswept.offset
  have htot : s.total = t.toNat := hswept.total
  have hdisk (l : Nat) (hl : data l) : s.device.sector l =
      if offset.toNat + b₀.toNat ≤ l ∧ l < offset.toNat + t.toNat then
        cipher.encryptSector (UInt64.ofNat (l - offset.toNat)) (d.sector l)
      else d.sector l := by
    have h := hswept.disk l hl
    rw [hend] at h
    simp only [Sweep.offset, Sweep.boundary, attach, EncryptionEngine.new, transform, min_eq_left hb,
      max_eq_right hb] at h
    exact h
  refine ⟨?_, ?_, ?_⟩
  · apply area_of_sectors hss rfl hswept.sectorSize hc.encryptArea
    intro r hr hlt
    rw [hdisk _ (hregion r (by omega)), if_pos (by omega), Nat.add_sub_cancel_left]
  · intro l hl hout
    rw [hdisk l hl, if_neg hout]
  · intro ops'
    have hleft : s.left .encrypt = 0 := by
      have h₁ : s.engine.encryptedOffset.sector.toNat = t.toNat := hend
      have h₂ : s.engine.encryptedOffset.totalSectors.toNat = t.toNat := htot
      simp only [Sweep.left, remaining]
      omega
    have hready₂ : Ready cipher .decrypt data I { s with steps := 0 } :=
      ⟨hready₁.region, hready₁.accessible, hready₁.sectorSize, hready₁.lawful, hready₁.inv, hready₁.bounded,
        .inl (hprog.done hleft)⟩
    obtain ⟨s', hrun', -, hswept', hprog'⟩ := hready₂.progresses hS ops'
    refine ⟨s', hrun', hprog', ?_, ?_⟩
    · intro l hl hout
      have hback : s'.boundary ≤ s.boundary := hswept'.toward
      have hb' : ({ s with steps := 0 } : Sweep σ).boundary = s.boundary := rfl
      have ho' : ({ s with steps := 0 } : Sweep σ).offset = s.offset := rfl
      rw [hswept'.disk l hl, hb', ho', hoff, hend, if_neg (by omega), hdisk l hl, if_neg (by omega)]
    · intro hzero r hr hlt
      have hmid : Swept cipher .encrypt data (attach offset b₀ t st d) { s with steps := 0 } :=
        ⟨hswept.offset, hswept.total, hswept.sectorSize, hswept.toward, hswept.disk⟩
      exact hmid.restores hc hswept' hzero hregion hr (show r < s.boundary by omega) hlt

end Whole

/-- The JVCK store on a healthy device answers every call and writes Metadata sectors only. -/
theorem jvckOffsetStore_reliable (P : JvckMetadata.Primitives) (L : Layout) :
    Reliable (jvckOffsetStore P) (¬ L.IsMeta ·)
      fun s d => On s.toPlacement L d ∧ Healthy d ∧ s.codec = jvckCbcCodec P := by
  have hreseal {s : JvckMetadataStore} {d : Device}
      (h : On s.toPlacement L d ∧ Healthy d ∧ s.codec = jvckCbcCodec P) :
      Frame (¬ ¬ L.IsMeta ·) d (s.writeAllReplicas d).2 ∧
        On s.toPlacement L (s.writeAllReplicas d).2 ∧ Healthy (s.writeAllReplicas d).2 ∧ s.codec = jvckCbcCodec P := by
    obtain ⟨hon, hd, hcodec⟩ := h
    obtain ⟨hframe, -⟩ := writeAllReplicas_spec (r := (s.writeAllReplicas d).1) hon rfl
    exact ⟨hframe.mono fun _ hl => not_not.mpr hl, hon.frame hframe, hd.frame hframe, hcodec⟩
  constructor
  · constructor
    · intro s d d' h hf
      exact ⟨h.1.frame hf, h.2.1.frame hf, h.2.2⟩
    · intro s d o h
      exact hreseal (s := { s with offset := o.sector }) h
    · intro s d h
      exact ⟨.refl _ _, h⟩
    · intro s d v h
      exact hreseal (s := { s with state := v.asU16 }) h
  · intro s d o h _
    exact congrArg Prod.fst (writeReplicas_cbc (s := { s with offset := o.sector }) h.1 h.2.1 h.2.2 _)
  · intro s d _
    rfl

/-- An interrupted sweep over a created volume of 512 data sectors. -/
theorem sweep_any_schedule_created :
    ∃ st d s, On st.toPlacement twoFooters d ∧
      StepRun.run (sweepOp (jvckOffsetStore JvckMetadata.standard)
          (xtsVolumeCipher JvckMetadata.standard.aes ⟨List.Vector.replicate 32 1, List.Vector.replicate 32 2⟩) .encrypt)
        (attach 0 0 512 st d) [.start, .batch 100, .pause, .batch 100, .start, .batch 0] = some s ∧
      s.boundary ≤ s.total := by
  have hd : Healthy (blank 512 1024 (by decide)) := blank_healthy _
  obtain ⟨st, d, hcreate, hcodec⟩ := create_cbc (P := JvckMetadata.standard) [1, 2, 3] (List.Vector.replicate 32 1)
    (List.Vector.replicate 32 2) (List.Vector.replicate 16 9) hd (by decide) twoFooters_of
  obtain ⟨L, hL, hsync, hframe, -⟩ := create_spec (by decide) (by decide) hcreate
  obtain rfl := hL.unique twoFooters_of
  have hd' := hd.frame hframe
  have hss : d.ss = 512 := hframe.ss
  have hsectors : d.sectors = 1024 := hframe.sectors
  have hregion : ∀ r, r < (512 : UInt64).toNat → ¬ twoFooters.IsMeta ((0 : UInt64).toNat + r) := by
    rintro r hr ⟨i, hi, hmeta⟩
    have hin : twoFooters.InData ((0 : UInt64).toNat + r) := ⟨Nat.zero_le _, by rwa [UInt64.toNat_zero, Nat.zero_add]⟩
    rw [hmeta] at hin
    exact twoFooters.metaLba_not_data hi hin
  have hio : Accessible d (0 : UInt64).toNat (512 : UInt64).toNat := by
    rw [Accessible, Reachable, Reachable, hsectors]
    exact ⟨⟨by decide, fun _ _ => hd'.readFault _⟩, ⟨by decide, fun _ _ => hd'.writeFault _⟩⟩
  obtain ⟨s, hrun, hprog, -⟩ := sweep_any_schedule (jvckOffsetStore_reliable JvckMetadata.standard twoFooters)
    (show (0 : UInt64).toNat ≤ (512 : UInt64).toNat by decide) hregion hio (by rw [hss]; decide)
    (xtsVolumeCipher_lawful (by rw [hss]; decide) JvckMetadata.standard.aes
      ⟨List.Vector.replicate 32 1, List.Vector.replicate 32 2⟩)
    ⟨hsync.on, hd', hcodec⟩ [.start, .batch 100, .pause, .batch 100, .start, .batch 0]
  exact ⟨st, d, s, hsync.on, hrun, hprog.bounded⟩

end SweepSchedule
