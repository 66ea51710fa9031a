import VolumeCrypt.JvckRecovery
import VolumeCrypt.SweepEngine

/-!
# The attached volume

`AttachedVolume` of `lib/windrv/src/registry.rs` with its sweep step, and the range
decision of `lib/windrv/src/filter/volume_thread.rs`. The boundary lives in the
engine and, for the data path, in a cache that `sweep_step` refreshes afterwards.
-/
namespace VolumeSweep

open ByteString VckTypes SectorIo CipherTraits SweepEngine

inductive IoConfig where
  | passthrough
  | encrypted (cipherSupplier : Option VolumeCipherSupplier) (offsetSector : UInt64)
      (encryptedOffset : EncryptedOffset)
  | custom (offsetSector : UInt64) (encryptedOffset : EncryptedOffset)

def IoConfig.offsetSector : IoConfig → UInt64
  | .passthrough => 0
  | .encrypted _ offsetSector _ => offsetSector
  | .custom offsetSector _ => offsetSector

structure AttachedVolume (σ : Type) where
  sectorSize : UInt32
  ioConfig : IoConfig
  encryption : EncryptionEngine
  offsetStore : σ
  encryptedBoundary : UInt64
  /-- How often `get_cipher` was called so far. -/
  cipherCalls : Nat

section Volume

variable {σ : Type}

namespace AttachedVolume

def offsetSector (v : AttachedVolume σ) : UInt64 := v.ioConfig.offsetSector

def dataSectors (v : AttachedVolume σ) : UInt64 :=
  match v.ioConfig with
  | .passthrough => 0
  | .encrypted _ _ encryptedOffset => encryptedOffset.totalSectors
  | .custom _ encryptedOffset => encryptedOffset.totalSectors

def cipherSupplier (v : AttachedVolume σ) : Option VolumeCipherSupplier :=
  match v.ioConfig with
  | .encrypted (some s) _ _ => some s
  | _ => none

/-- What the next `get_cipher` answers; `none` without a supplier. -/
def nextCipher (v : AttachedVolume σ) : Option VolumeCipher :=
  v.cipherSupplier.bind fun s => s.getCipher v.cipherCalls

/-- The volume after one call of `get_cipher`. -/
def acquired (v : AttachedVolume σ) : AttachedVolume σ :=
  match v.cipherSupplier with
  | some _ => { v with cipherCalls := v.cipherCalls + 1 }
  | none => v

def syncBoundary (v : AttachedVolume σ) : AttachedVolume σ :=
  { v with encryptedBoundary := v.encryption.encryptedBoundary }

def sweepStep (S : EncryptedOffsetStore σ) (batchSectors : UInt64) (v : AttachedVolume σ) (d : Device) :
    VckResult Bool × AttachedVolume σ × Device :=
  match v.nextCipher with
  | none => (.ok false, v.acquired, d)
  | some cipher =>
    let (result, encryption, offsetStore, d) :=
      EncryptionEngine.progressStep S cipher batchSectors v.encryption v.offsetStore d
    let v := { v.acquired with encryption, offsetStore }
    match result with
    | .ok more => (.ok more, v.syncBoundary, d)
    | .error e => (.error e, v, d)

end AttachedVolume

/-- `abs_lba.checked_sub(offset).filter(|rel| *rel < total)`. -/
def dataRelative (v : AttachedVolume σ) (absLba : UInt64) : Option UInt64 :=
  if absLba < v.offsetSector then none
  else (some (absLba - v.offsetSector)).filter (· < v.dataSectors)

/-- The first relative sector and the boundary, when the first sector needs the cipher. -/
def cryptoRange (v : AttachedVolume σ) (firstLba : UInt64) : Option (UInt64 × UInt64) := do
  let firstRel ← dataRelative v firstLba
  let boundary := v.encryptedBoundary
  if boundary > 0 ∧ firstRel < boundary then some (firstRel, boundary) else none

/-- A raw sector has a relative number exactly when it is a data sector. -/
theorem dataRelative_eq (v : AttachedVolume σ) (lba : UInt64) :
    dataRelative v lba =
      if v.offsetSector.toNat ≤ lba.toNat ∧ lba.toNat < v.offsetSector.toNat + v.dataSectors.toNat then
        some (lba - v.offsetSector)
      else none := by
  unfold dataRelative
  simp only [UInt64.lt_iff_toNat_lt]
  by_cases hlt : lba.toNat < v.offsetSector.toNat
  · rw [if_pos hlt, if_neg (by omega)]
  · have hsub : (lba - v.offsetSector).toNat = lba.toNat - v.offsetSector.toNat :=
      UInt64.toNat_sub_of_le _ _ (UInt64.le_iff_toNat_le.mpr (by omega))
    rw [if_neg hlt, Option.filter_some]
    by_cases hrel : lba.toNat < v.offsetSector.toNat + v.dataSectors.toNat
    · rw [if_pos (by simp only [decide_eq_true_eq]; omega), if_pos (by omega)]
    · rw [if_neg (by simp only [decide_eq_true_eq]; omega), if_neg (by omega)]

theorem cryptoRange_eq (v : AttachedVolume σ) (lba : UInt64) :
    cryptoRange v lba =
      if v.offsetSector.toNat ≤ lba.toNat ∧ lba.toNat < v.offsetSector.toNat + v.dataSectors.toNat ∧
          lba.toNat < v.offsetSector.toNat + v.encryptedBoundary.toNat then
        some (lba - v.offsetSector, v.encryptedBoundary)
      else none := by
  rw [cryptoRange, dataRelative_eq]
  by_cases hin : v.offsetSector.toNat ≤ lba.toNat ∧ lba.toNat < v.offsetSector.toNat + v.dataSectors.toNat
  · have hsub : (lba - v.offsetSector).toNat = lba.toNat - v.offsetSector.toNat :=
      UInt64.toNat_sub_of_le _ _ (UInt64.le_iff_toNat_le.mpr hin.1)
    have hzero : (0 : UInt64).toNat = 0 := rfl
    rw [if_pos hin]
    change (if _ ∧ _ then some (lba - v.offsetSector, v.encryptedBoundary) else none) = _
    simp only [gt_iff_lt, UInt64.lt_iff_toNat_lt]
    by_cases hb : lba.toNat < v.offsetSector.toNat + v.encryptedBoundary.toNat
    · rw [if_pos (by omega), if_pos (by omega)]
    · rw [if_neg (by omega), if_neg (by omega)]
  · rw [if_neg hin, if_neg (by omega)]
    rfl

/-! ## Coherence -/

/-- The data region of the volume. -/
def region (v : AttachedVolume σ) (lba : Nat) : Prop :=
  v.encryption.offsetSector.toNat ≤ lba ∧
    lba < v.encryption.offsetSector.toNat + v.encryption.encryptedOffset.totalSectors.toNat

/-- The configuration and the engine describe one region of the device. -/
structure Attached (v : AttachedVolume σ) (d : Device) : Prop where
  offset : v.offsetSector = v.encryption.offsetSector
  total : v.dataSectors = v.encryption.encryptedOffset.totalSectors
  ss : 0 < d.ss
  fits : v.encryption.offsetSector.toNat + v.encryption.encryptedOffset.totalSectors.toNat ≤ d.sectors

/-- Whenever a cipher is handed out it is this one. -/
def Supplies (v : AttachedVolume σ) (cipher : VolumeCipher) : Prop :=
  ∀ s, v.cipherSupplier = some s → ∀ n c, s.getCipher n = some c → c = cipher

/-- Cache and engine agree, and their boundary divides ciphertext and plaintext on the disk: decrypting
exactly the sectors below it gives the plaintext. -/
structure Coherent (cipher : VolumeCipher) (plain : Nat → Bytes) (v : AttachedVolume σ) (d : Device) : Prop where
  cache : v.encryptedBoundary = v.encryption.encryptedBoundary
  bounded : v.encryption.encryptedBoundary.toNat ≤ v.encryption.encryptedOffset.totalSectors.toNat
  divide : ∀ rel, rel < v.encryption.encryptedOffset.totalSectors.toNat →
    plainSector cipher v.encryption.offsetSector.toNat v.encryption.encryptedBoundary.toNat d rel = plain rel

/-- The data path uses the cipher on the sectors below the engine's boundary and on no others. -/
def PathFollows (v : AttachedVolume σ) : Prop :=
  ∀ lba : UInt64, v.encryption.offsetSector.toNat ≤ lba.toNat →
    lba.toNat < v.encryption.offsetSector.toNat + v.encryption.encryptedOffset.totalSectors.toNat →
    ((cryptoRange v lba).isSome ↔ lba.toNat < v.encryption.offsetSector.toNat + v.encryption.encryptedBoundary.toNat)

theorem pathFollows_of_cache {v : AttachedVolume σ} (hoff : v.offsetSector = v.encryption.offsetSector)
    (htot : v.dataSectors = v.encryption.encryptedOffset.totalSectors)
    (hcache : v.encryptedBoundary = v.encryption.encryptedBoundary) : PathFollows v := by
  intro lba hlo hhi
  rw [cryptoRange_eq, hoff, htot, hcache]
  by_cases hb : lba.toNat < v.encryption.offsetSector.toNat + v.encryption.encryptedBoundary.toNat
  · simp [hlo, hhi, hb]
  · simp [hb]

/-- How the two store calls of a batch answer. -/
structure StoreAnswers where
  store : VckResult Unit
  flush : VckResult Unit

/-- The store with the effects of `S` and the given answers. -/
def answering (S : EncryptedOffsetStore σ) (a : StoreAnswers) : EncryptedOffsetStore σ :=
  { S with
    store := fun st d o => (a.store, (S.store st d o).2)
    flush := fun st d => (a.flush, (S.flush st d).2) }

/-- A batch reaches the disk and its boundary is not persisted. -/
def LostUpdate (a : StoreAnswers) (batchSectors : UInt64) (v : AttachedVolume σ) (d : Device) : Prop :=
  ∃ cipher b, v.nextCipher = some cipher ∧ nextBatch cipher batchSectors v.encryption = some b ∧
    Accessible d (v.encryption.offsetSector.toNat + b.start.toNat) b.count.toNat ∧
    (a.store ≠ .ok () ∨ a.flush ≠ .ok ())

theorem offsetSector_congr {v v' : AttachedVolume σ} (h : v'.ioConfig = v.ioConfig) :
    v'.offsetSector = v.offsetSector ∧ v'.dataSectors = v.dataSectors := by
  rw [AttachedVolume.offsetSector, AttachedVolume.dataSectors, h]
  exact ⟨rfl, rfl⟩

theorem acquired_fields (v : AttachedVolume σ) :
    v.acquired.ioConfig = v.ioConfig ∧ v.acquired.encryption = v.encryption ∧
      v.acquired.encryptedBoundary = v.encryptedBoundary ∧ v.acquired.sectorSize = v.sectorSize ∧
      v.acquired.offsetStore = v.offsetStore := by
  unfold AttachedVolume.acquired
  split <;> exact ⟨rfl, rfl, rfl, rfl, rfl⟩

theorem nextCipher_eq {v : AttachedVolume σ} {cipher c : VolumeCipher} (hsup : Supplies v cipher)
    (h : v.nextCipher = some c) : c = cipher := by
  obtain ⟨s, hs, hc⟩ := Option.bind_eq_some_iff.mp h
  exact hsup s hs _ _ hc

/-- A step without a cipher or without a due batch only refreshes the cache. -/
theorem sweepStep_idle {S : EncryptedOffsetStore σ} {batchSectors : UInt64} {v : AttachedVolume σ} {d : Device}
    (h : ¬ ∃ cipher b, v.nextCipher = some cipher ∧ nextBatch cipher batchSectors v.encryption = some b) :
    ∃ v', v.sweepStep S batchSectors d = (.ok false, v', d) ∧ v'.ioConfig = v.ioConfig ∧
      (∃ state, v'.encryption = { v.encryption with state }) ∧
      (v'.encryptedBoundary = v.encryptedBoundary ∨ v'.encryptedBoundary = v.encryption.encryptedBoundary) ∧
      v'.sectorSize = v.sectorSize ∧ v'.offsetStore = v.offsetStore := by
  obtain ⟨hio, henc, hcache, hss, hst⟩ := acquired_fields v
  unfold AttachedVolume.sweepStep
  cases hn : v.nextCipher with
  | none => exact ⟨v.acquired, rfl, hio, ⟨v.encryption.state, henc⟩, .inl hcache, hss, hst⟩
  | some cipher =>
    have hnone : nextBatch cipher batchSectors v.encryption = none :=
      Option.eq_none_iff_forall_ne_some.mpr fun b hb => h ⟨cipher, b, hn, hb⟩
    obtain ⟨state, hstep⟩ := progressStep_of_none S v.offsetStore d hnone
    simp only [hstep]
    exact ⟨_, rfl, hio, ⟨state, rfl⟩, .inr rfl, hss, rfl⟩

/-- What a step with a due batch does: nothing when a sector is out of reach, and otherwise the batch is
on the disk, the engine has moved, and the cache follows exactly when the boundary was persisted. -/
theorem sweepStep_batch {S : EncryptedOffsetStore σ} {batchSectors : UInt64} {v : AttachedVolume σ} {d : Device}
    {cipher : VolumeCipher} (hc : LawfulCipher d.ss cipher) (hv : Attached v d)
    (hle : v.encryption.encryptedBoundary.toNat ≤ v.encryption.encryptedOffset.totalSectors.toNat)
    (hn : v.nextCipher = some cipher) {b : Batch} (hb : nextBatch cipher batchSectors v.encryption = some b) :
    (¬ Accessible d (v.encryption.offsetSector.toNat + b.start.toNat) b.count.toNat ∧
      ∃ err, v.sweepStep S batchSectors d = (.error err, v.acquired, d)) ∨
    (Accessible d (v.encryption.offsetSector.toNat + b.start.toNat) b.count.toNat ∧
      ∃ d' r state,
        Rewritten b.sector (v.encryption.offsetSector.toNat + b.start.toNat) b.start.toNat b.count.toNat d d' ∧
        ((∃ more, r = .ok more) ↔ Persists S (v.encryption.setBoundary b.boundary) v.offsetStore d') ∧
        v.sweepStep S batchSectors d =
          (r, { v.acquired with
                encryption := { v.encryption.setBoundary b.boundary with state }
                offsetStore :=
                  (EncryptionEngine.persist S b.finished (v.encryption.setBoundary b.boundary) v.offsetStore d').2.2.1
                encryptedBoundary := if r.isOk then b.boundary else v.encryptedBoundary },
            (EncryptionEngine.persist S b.finished (v.encryption.setBoundary b.boundary) v.offsetStore d').2.2.2)) := by
  obtain ⟨hfit, hdir⟩ := nextBatch_cases hle hb
  have hlaw := nextBatch_areaLaw (e := v.encryption) hc hdir
  have hend : v.encryption.offsetSector.toNat + b.start.toNat + b.count.toNat ≤ d.sectors := by
    have := hv.fits
    have := hfit.within
    omega
  obtain ⟨hio, henc, hcache, hss, hst⟩ := acquired_fields v
  have hstep := progressStep_of_some S v.offsetStore d hb
  unfold AttachedVolume.sweepStep
  rcases batchStep_cases S v.offsetStore hv.ss hlaw hend with ⟨hacc, err, herr⟩ | ⟨hacc, d', hrew, hper⟩
  · left
    refine ⟨hacc, err, ?_⟩
    rw [hn]
    simp only [hstep, herr]
    rw [← henc, ← hst]
  · right
    obtain ⟨r, state, hcase, hiff⟩ := persist_cases S b.finished (v.encryption.setBoundary b.boundary) v.offsetStore d'
    rw [← hper] at hcase
    refine ⟨hacc, d', r, state, hrew, hiff, ?_⟩
    rw [hn, ← hper]
    simp only [hstep, hcase]
    cases r with
    | ok more => rfl
    | error err =>
      simp only [Except.isOk, Except.toBool, Bool.false_eq_true, if_false]
      rw [← hcache]

section Coherence

variable {S : EncryptedOffsetStore σ} {a : StoreAnswers} {batchSectors : UInt64} {v : AttachedVolume σ} {d : Device}
  {cipher : VolumeCipher} {plain : Nat → Bytes}

theorem answering_confined {data : Nat → Prop} {I : σ → Device → Prop} (hS : Confined S data I) :
    Confined (answering S a) data I :=
  ⟨hS.frame, hS.store, hS.flush, hS.storeState⟩

/-- A lost update leaves the cache behind the engine. -/
theorem cache_stale_of_lost (hc : LawfulCipher d.ss cipher) (hv : Attached v d) (hsup : Supplies v cipher)
    (h : Coherent cipher plain v d) (hlost : LostUpdate a batchSectors v d) :
    (v.sweepStep (answering S a) batchSectors d).2.1.encryptedBoundary ≠
      (v.sweepStep (answering S a) batchSectors d).2.1.encryption.encryptedBoundary := by
  obtain ⟨c, b, hn, hb, hacc, hans⟩ := hlost
  obtain rfl := nextCipher_eq hsup hn
  obtain ⟨hfit, -⟩ := nextBatch_cases h.bounded hb
  rcases sweepStep_batch (S := answering S a) hc hv h.bounded hn hb with ⟨hno, -⟩ | ⟨-, d', r, state, -, hiff, hstep⟩
  · exact absurd hacc hno
  · have hr : r.isOk = false := by
      cases r with
      | error e => rfl
      | ok more =>
        obtain ⟨h₁, h₂⟩ := hiff.mp ⟨more, rfl⟩
        rcases hans with hans | hans
        · exact absurd h₁ hans
        · exact absurd h₂ hans
    rw [hstep]
    simp only [hr, Bool.false_eq_true, if_false]
    rw [h.cache]
    exact fun heq => hfit.moved heq.symm

/-- A volume of the same configuration whose cache follows its engine. -/
theorem Attached.pathFollows (hv : Attached v d) {v' : AttachedVolume σ} {state : EngineState} (o : UInt64)
    (hio : v'.ioConfig = v.ioConfig) (henc : v'.encryption = { v.encryption.setBoundary o with state })
    (hcache : v'.encryptedBoundary = v'.encryption.encryptedBoundary) : PathFollows v' := by
  obtain ⟨hoff, htot⟩ := offsetSector_congr hio
  apply pathFollows_of_cache _ _ hcache
  · rw [hoff, hv.offset, henc]
    rfl
  · rw [htot, hv.total, henc]
    rfl

/-- A step that leaves the disk alone keeps the coherence if it leaves the boundary alone. -/
theorem Coherent.idle (h : Coherent cipher plain v d) (hv : Attached v d) {v' : AttachedVolume σ} {state : EngineState}
    (hio : v'.ioConfig = v.ioConfig) (henc : v'.encryption = { v.encryption with state })
    (hcache : v'.encryptedBoundary = v.encryption.encryptedBoundary) :
    Coherent cipher plain v' d ∧ PathFollows v' := by
  have hcache' : v'.encryptedBoundary = v'.encryption.encryptedBoundary := by
    rw [hcache, henc]
    rfl
  refine ⟨⟨hcache', ?_, ?_⟩, hv.pathFollows v.encryption.encryptedBoundary hio henc hcache'⟩
  · rw [henc]
    exact h.bounded
  · rw [henc]
    exact h.divide

/-- Every other step keeps the coherence. -/
theorem coherent_of_not_lost {I : σ → Device → Prop} (hS : Confined S (region v) I) (hI : I v.offsetStore d)
    (hc : LawfulCipher d.ss cipher) (hv : Attached v d) (hsup : Supplies v cipher) (h : Coherent cipher plain v d)
    (hkept : ¬ LostUpdate a batchSectors v d) :
    Coherent cipher plain (v.sweepStep (answering S a) batchSectors d).2.1
        (v.sweepStep (answering S a) batchSectors d).2.2 ∧
      PathFollows (v.sweepStep (answering S a) batchSectors d).2.1 := by
  by_cases hdue : ∃ c b, v.nextCipher = some c ∧ nextBatch c batchSectors v.encryption = some b
  · obtain ⟨c, b, hn, hb⟩ := hdue
    obtain rfl := nextCipher_eq hsup hn
    obtain ⟨hfit, hdir⟩ := nextBatch_cases h.bounded hb
    obtain ⟨hio, henc, hcache, -⟩ := acquired_fields v
    rcases sweepStep_batch (S := answering S a) hc hv h.bounded hn hb with
      ⟨-, err, hstep⟩ | ⟨hacc, d', r, state, hrew, hiff, hstep⟩
    · rw [hstep]
      exact h.idle hv hio henc (hcache.trans h.cache)
    · have hans : a.store = .ok () ∧ a.flush = .ok () := by
        by_contra hne
        exact hkept ⟨c, b, hn, hb, hacc, not_and_or.mp hne⟩
      obtain ⟨more, rfl⟩ := hiff.mpr hans
      have hinside : Frame (region v) d d' := hrew.frame.mono (by
        rintro l ⟨hlo, hhi⟩
        have := hfit.within
        exact ⟨by omega, by omega⟩)
      obtain ⟨hframe, -⟩ := persist_frame (answering_confined (a := a) hS) (hS.frame hI hinside) b.finished
        (v.encryption.setBoundary b.boundary)
      rw [hstep]
      refine ⟨⟨rfl, hfit.bounded, ?_⟩, hv.pathFollows b.boundary hio rfl rfl⟩
      intro rel hrel
      have hin : ¬ ¬ region v (v.encryption.offsetSector.toNat + rel) :=
        not_not_intro ⟨Nat.le_add_right _ _, Nat.add_lt_add_left hrel _⟩
      refine (plainSector_frame hframe hin).trans ?_
      refine (Batch.plainSector_eq hc hdir hrew rel).trans ?_
      exact h.divide rel hrel
  · obtain ⟨v', hstep, hio, ⟨state, henc⟩, hcache, -⟩ := sweepStep_idle (S := answering S a) (d := d) hdue
    rw [hstep]
    refine h.idle hv hio henc ?_
    rcases hcache with hcache | hcache
    · exact hcache.trans h.cache
    · exact hcache

/-- After one sweep step, with every combination of outcomes, cache, engine and disk agree on the
boundary exactly when no batch was written whose boundary could not be persisted. -/
theorem sweep_coherent_iff {I : σ → Device → Prop} (hS : Confined S (region v) I) (hI : I v.offsetStore d)
    (hc : LawfulCipher d.ss cipher) (hv : Attached v d) (hsup : Supplies v cipher) (h : Coherent cipher plain v d) :
    (Coherent cipher plain (v.sweepStep (answering S a) batchSectors d).2.1
        (v.sweepStep (answering S a) batchSectors d).2.2 ∧
      PathFollows (v.sweepStep (answering S a) batchSectors d).2.1) ↔ ¬ LostUpdate a batchSectors v d := by
  constructor
  · rintro ⟨hcoh, -⟩ hlost
    exact cache_stale_of_lost (S := S) hc hv hsup h hlost hcoh.cache
  · exact coherent_of_not_lost hS hI hc hv hsup h

end Coherence

end Volume

/-! ## A metadata sector that cannot be written -/

section Sample

open JvckLayout JvckStore JvckReplicas JvckRuns JvckRecovery

/-- A volume at boundary 5 of 512 that is being encrypted. -/
def sampleVolume : AttachedVolume JvckMetadataStore where
  sectorSize := 512
  ioConfig := .encrypted
    (some (staticCipherSupplier Aes.aes256 (List.Vector.replicate 32 1) (List.Vector.replicate 32 2))) 0 ⟨5, 512⟩
  encryption := ⟨0, ⟨5, 512⟩, .encrypting⟩
  offsetStore := sampleStore 5 .encrypt
  encryptedBoundary := 5
  cipherCalls := 0

def sampleCipher : VolumeCipher := xtsVolumeCipher Aes.aes256 ⟨List.Vector.replicate 32 1, List.Vector.replicate 32 2⟩

/-- What a user of the sample volume reads. -/
def samplePlain : Nat → Bytes := plainSector sampleCipher 0 5 (sampleDevice 5 .encrypt)

theorem sampleVolume_attached : Attached sampleVolume (sampleDevice 5 .encrypt) := by
  obtain ⟨hsync, -⟩ := sampleDevice_synced 5 .encrypt
  have htotal : 1024 = (sampleDevice 5 .encrypt).sectors := hsync.on.total
  refine ⟨rfl, rfl, ?_, ?_⟩
  · have := hsync.on.ss
    omega
  · rw [← htotal]
    decide

theorem sampleCipher_lawful : LawfulCipher (sampleDevice 5 .encrypt).ss sampleCipher :=
  xtsVolumeCipher_lawful sampleVolume_attached.ss _ _

theorem sampleVolume_supplies : Supplies sampleVolume sampleCipher := by
  intro s hs n c hc
  obtain rfl := Option.some.inj hs
  exact (Option.some.inj hc).symm

theorem sampleVolume_coherent : Coherent sampleCipher samplePlain sampleVolume (sampleDevice 5 .encrypt) :=
  ⟨rfl, by decide, fun _ _ => rfl⟩

/-- With a store that works, a batch of four sectors leaves everything coherent. -/
theorem sweep_coherent_of_working_store :
    Coherent sampleCipher samplePlain
      (sampleVolume.sweepStep (answering (jvckOffsetStore JvckMetadata.standard) ⟨.ok (), .ok ()⟩) 4
        (sampleDevice 5 .encrypt)).2.1
      (sampleVolume.sweepStep (answering (jvckOffsetStore JvckMetadata.standard) ⟨.ok (), .ok ()⟩) 4
        (sampleDevice 5 .encrypt)).2.2 := by
  obtain ⟨hsync, -⟩ := sampleDevice_synced 5 .encrypt
  have hS : Confined (jvckOffsetStore JvckMetadata.standard) (region sampleVolume)
      fun s d => On s.toPlacement twoFooters d :=
    jvckOffsetStore_confined JvckMetadata.standard twoFooters
  refine ((sweep_coherent_iff hS hsync.on sampleCipher_lawful sampleVolume_attached sampleVolume_supplies
    sampleVolume_coherent).mpr ?_).1
  rintro ⟨c, b, -, -, -, h | h⟩
  · exact h rfl
  · exact h rfl

/-- When the store cannot write its replicas, the batch is on the disk and the engine is ahead of the
cache. -/
theorem sweep_incoherent_of_failing_store :
    Coherent sampleCipher samplePlain sampleVolume (sampleDevice 5 .encrypt) ∧
      ¬ Coherent sampleCipher samplePlain
        (sampleVolume.sweepStep (answering (jvckOffsetStore JvckMetadata.standard)
          ⟨.error (.io "write_sectors failed"), .ok ()⟩) 4 (sampleDevice 5 .encrypt)).2.1
        (sampleVolume.sweepStep (answering (jvckOffsetStore JvckMetadata.standard)
          ⟨.error (.io "write_sectors failed"), .ok ()⟩) 4 (sampleDevice 5 .encrypt)).2.2 := by
  refine ⟨sampleVolume_coherent, fun hcoh => ?_⟩
  obtain ⟨hsync, hd⟩ := sampleDevice_synced 5 .encrypt
  have htotal : 1024 = (sampleDevice 5 .encrypt).sectors := hsync.on.total
  refine cache_stale_of_lost sampleCipher_lawful sampleVolume_attached sampleVolume_supplies sampleVolume_coherent
    ⟨sampleCipher, _, rfl, rfl, ⟨⟨?_, fun i _ => hd.readFault _⟩, ⟨?_, fun i _ => hd.writeFault _⟩⟩, .inl (by simp)⟩
    hcoh.cache
  · rw [← htotal]
    decide
  · rw [← htotal]
    decide

end Sample

end VolumeSweep
