import VolumeCrypt.DataPath

/-!
# Transparent encryption over whole runs

A mounted volume under user reads and writes, sweep batches, changes of direction,
pauses and re-attachment. The abstract volume is an array of plaintext sectors with
the answers given so far; what the driver, the sweep and the metadata do together
represents it after every run in which each call succeeds.
-/
namespace Transparency

open ByteString VckTypes SectorIo CipherTraits JvckLayout JvckStore JvckReplicas JvckRuns SweepEngine VolumeSweep
  DataPath
open JvckMetadata (Primitives JvckSecrets)

/-! ## Attaching -/

/-- What an attach depends on besides the device. -/
structure Env where
  primitives : Primitives
  vmk : Bytes
  supplierOf : JvckSecrets → VolumeCipherSupplier

/-- The sample's `on_attach`: open the metadata, load the boundary, build the cipher supplier. -/
def onAttach (E : Env) (d : Device) : VckResult (UInt64 × EncryptedOffset × JvckMetadataStore) := do
  let store ← JvckMetadataStore.openStore E.primitives d E.vmk
  let sector ← store.loadOffset E.primitives d
  return (store.geometry.offsetSector, { sector, totalSectors := store.geometry.dataSectors }, store)

theorem onAttach_ok_iff {E : Env} {d : Device} {offsetSector : UInt64} {encryptedOffset : EncryptedOffset}
    {store : JvckMetadataStore} :
    onAttach E d = .ok (offsetSector, encryptedOffset, store) ↔
      JvckMetadataStore.openStore E.primitives d E.vmk = .ok store ∧ offsetSector = store.geometry.offsetSector ∧
        ∃ sector, store.loadOffset E.primitives d = .ok sector ∧
          encryptedOffset = ⟨sector, store.geometry.dataSectors⟩ := by
  constructor
  · intro h
    rw [onAttach] at h
    cases hopen : JvckMetadataStore.openStore E.primitives d E.vmk with
    | error e =>
      rw [hopen] at h
      cases h
    | ok s =>
      rw [hopen] at h
      change (s.loadOffset E.primitives d >>= _) = _ at h
      cases hload : s.loadOffset E.primitives d with
      | error e =>
        rw [hload] at h
        cases h
      | ok sector =>
        rw [hload] at h
        cases h
        exact ⟨rfl, rfl, sector, hload, rfl⟩
  · rintro ⟨hopen, rfl, sector, hload, rfl⟩
    rw [onAttach, hopen]
    change (store.loadOffset E.primitives d >>= _) = _
    rw [hload]
    rfl

/-- The volume that an attach binds; the handover path also resumes the sweep. -/
def attach (E : Env) (resume : Bool) (d : Device) : VckResult (AttachedVolume JvckMetadataStore) := do
  let (offsetSector, encryptedOffset, store) ← onAttach E d
  let engine := EncryptionEngine.new offsetSector encryptedOffset
  return {
    sectorSize := d.sectorSize
    ioConfig := .encrypted (some (E.supplierOf store.secrets)) offsetSector encryptedOffset
    encryption := if resume then engine.resume (jvckOffsetStore E.primitives) store d else engine
    offsetStore := store
    encryptedBoundary := encryptedOffset.sector
    cipherCalls := 0 }

/-! ## The system -/

/-- A mounted volume over its device, with the cipher of the current burst and the answers given so far. -/
structure Sys where
  volume : AttachedVolume JvckMetadataStore
  device : Device
  burst : Option VolumeCipher
  replies : List Bytes

inductive Op where
  | read (irp : Irp)
  | write (irp : Irp)
  | sweep (batchSectors : UInt64)
  | startEncrypt
  | startDecrypt
  | pause
  /-- The thread destroys its cipher after a burst of requests. -/
  | endBurst
  | reattach (resume : Bool)

/-- A sector-aligned request inside the data region. -/
def InDataRegion (g : Geometry) (irp : Irp) : Prop :=
  irp.byteOffset.toNat % g.sectorSize.toNat = 0 ∧ irp.length.toNat % g.sectorSize.toNat = 0 ∧
    irp.buffer.length = irp.length.toNat ∧
    g.offsetSector.toNat ≤ irp.byteOffset.toNat / g.sectorSize.toNat ∧
    irp.byteOffset.toNat / g.sectorSize.toNat + irp.length.toNat / g.sectorSize.toNat ≤
      g.offsetSector.toNat + g.dataSectors.toNat

instance (g : Geometry) (irp : Irp) : Decidable (InDataRegion g irp) :=
  inferInstanceAs (Decidable (_ ∧ _ ∧ _ ∧ _ ∧ _))

/-- A new direction; its `store_state` succeeds. -/
def turn (E : Env) (s : Sys) (state : VolumeState)
    (start : EncryptedOffsetStore JvckMetadataStore → EncryptionEngine → JvckMetadataStore → Device →
      EncryptionEngine × JvckMetadataStore × Device) : Option Sys :=
  match (s.volume.offsetStore.storeState s.device state).1 with
  | .error _ => none
  | .ok () =>
    let (encryption, offsetStore, device) :=
      start (jvckOffsetStore E.primitives) s.volume.encryption s.volume.offsetStore s.device
    some { s with volume := { s.volume with encryption, offsetStore }, device }

/-- One operation, when every call that it makes below succeeds. -/
def step (E : Env) (g : Geometry) (s : Sys) : Op → Option Sys
  | .read irp =>
    let (c, burst, volume) := processRead s.volume s.burst irp s.device
    if InDataRegion g irp ∧ c.status = .success then
      some { s with volume, burst, replies := s.replies ++ [c.buffer.take c.information] }
    else none
  | .write irp =>
    let (c, burst, volume, device) := processWrite s.volume s.burst irp s.device
    if InDataRegion g irp ∧ c.status = .success then some { s with volume, burst, device } else none
  | .sweep batchSectors =>
    match s.volume.sweepStep (jvckOffsetStore E.primitives) batchSectors s.device with
    | (.ok _, volume, device) => some { s with volume, device }
    | (.error _, _, _) => none
  | .startEncrypt => turn E s .encrypt EncryptionEngine.startEncrypt
  | .startDecrypt => turn E s .decrypt EncryptionEngine.startDecrypt
  | .pause => some { s with volume := { s.volume with encryption := s.volume.encryption.pause } }
  | .endBurst => some { s with burst := none }
  | .reattach resume =>
    match JvckMetadataReader.openReader E.primitives s.device, attach E resume s.device with
    | .ok reader, .ok volume =>
      if reader.lbas.all fun lba => (readBlock s.device reader.geometry.sectorSize lba).isOk then
        some { s with volume, burst := none }
      else none
    | _, _ => none

/-! ## The abstract volume -/

/-- Plaintext by relative sector, and the answers to the reads so far. -/
structure PlainVolume where
  plain : Nat → Bytes
  replies : List Bytes

/-- The first relative sector of a request. -/
def relOf (g : Geometry) (irp : Irp) : Nat := irp.byteOffset.toNat / g.sectorSize.toNat - g.offsetSector.toNat

/-- A read answers with the plaintext, a write replaces the sectors it covers, nothing else matters. -/
def PlainVolume.apply (g : Geometry) (p : PlainVolume) : Op → PlainVolume
  | .read irp =>
    { p with replies := p.replies ++ [(List.range (irp.length.toNat / g.sectorSize.toNat)).flatMap fun k =>
        p.plain (relOf g irp + k)] }
  | .write irp =>
    { p with plain := fun rel =>
        if relOf g irp ≤ rel ∧ rel < relOf g irp + irp.length.toNat / g.sectorSize.toNat then
          slice irp.buffer ((rel - relOf g irp) * g.sectorSize.toNat) g.sectorSize.toNat
        else p.plain rel }
  | _ => p

/-- Cache, engine and every replica agree on a boundary inside the data region, the cipher is bound,
and the plain view of the device is the abstract volume. -/
structure Mounted (E : Env) (L : Layout) (g : Geometry) (cipher : VolumeCipher) (s : Sys) (p : PlainVolume) :
    Prop where
  geometry : g = L.geometry s.device.sectorSize
  replicas : 0 < L.count
  codec : s.volume.offsetStore.codec = jvckCbcCodec E.primitives
  vmk : s.volume.offsetStore.vmk = E.vmk
  supplier : ∀ n, (E.supplierOf s.volume.offsetStore.secrets).getCipher n = some cipher
  lawful : LawfulCipher s.device.ss cipher
  keyed : Keyed s.volume s.burst cipher
  synced : Synced L s.volume.offsetStore s.device
  sectorSize : s.volume.sectorSize = s.device.sectorSize
  offset : s.volume.encryption.offsetSector = g.offsetSector
  total : s.volume.encryption.encryptedOffset.totalSectors = g.dataSectors
  config : s.volume.offsetSector = g.offsetSector ∧ s.volume.dataSectors = g.dataSectors
  stored : s.volume.offsetStore.offset = s.volume.encryption.encryptedBoundary
  coherent : Coherent cipher p.plain s.volume s.device
  replies : s.replies = p.replies

section Steps

variable {E : Env} {L : Layout} {g : Geometry} {cipher : VolumeCipher} {s s' : Sys} {p p' : PlainVolume}

namespace Mounted

theorem ss_pos (h : Mounted E L g cipher s p) : 0 < s.device.ss :=
  Nat.lt_of_lt_of_le (by decide) h.synced.on.ss

theorem toNat_offset (h : Mounted E L g cipher s p) : g.offsetSector.toNat = L.dataStart := by
  rw [h.geometry, ← h.synced.on.geometry]
  exact toNat_offsetSector h.synced.on

theorem toNat_total (h : Mounted E L g cipher s p) : g.dataSectors.toNat = L.dataCount := by
  rw [h.geometry, ← h.synced.on.geometry]
  exact toNat_dataSectors h.synced.on

theorem ss_eq (h : Mounted E L g cipher s p) : g.sectorSize.toNat = s.device.ss := by
  rw [h.geometry]
  rfl

theorem inData_iff (h : Mounted E L g cipher s p) {rel : Nat} :
    L.InData (g.offsetSector.toNat + rel) ↔ rel < g.dataSectors.toNat := by
  rw [h.toNat_offset, h.toNat_total, Layout.InData]
  omega

theorem attached (h : Mounted E L g cipher s p) : Attached s.volume s.device := by
  refine ⟨h.config.1.trans h.offset.symm, h.config.2.trans h.total.symm, h.ss_pos, ?_⟩
  have hd := L.dataEnd_eq
  have he := L.footerEnd_eq
  have ht := h.synced.on.total
  rw [h.offset, h.total, h.toNat_offset, h.toNat_total]
  omega

/-- The data path and the engine see one boundary. -/
theorem boundary (h : Mounted E L g cipher s p) :
    s.volume.encryption.encryptedBoundary = s.volume.encryptedBoundary ∧
      s.volume.encryptedBoundary.toNat ≤ g.dataSectors.toNat := by
  have hb := h.coherent.bounded
  rw [h.total, ← h.coherent.cache] at hb
  exact ⟨h.coherent.cache.symm, hb⟩

/-- The data region lies on the disk. -/
theorem region_le (h : Mounted E L g cipher s p) : g.offsetSector.toNat + g.dataSectors.toNat ≤ s.device.sectors := by
  have hfits := h.attached.fits
  rw [h.offset, h.total] at hfits
  exact hfits

theorem supplies (h : Mounted E L g cipher s p) : Supplies s.volume cipher := by
  obtain ⟨supplier, hsup, hall⟩ := h.keyed.supplier
  intro t ht n c hc
  rw [hsup] at ht
  obtain rfl := Option.some.inj ht
  exact Option.some.inj (hc.symm.trans (hall n))

theorem plain_eq (h : Mounted E L g cipher s p) {rel : Nat} (hr : rel < g.dataSectors.toNat) :
    plainSector cipher g.offsetSector.toNat s.volume.encryptedBoundary.toNat s.device rel = p.plain rel := by
  have hd := h.coherent.divide rel (by rw [h.total]; exact hr)
  rw [h.offset, h.boundary.1] at hd
  exact hd

/-- A later volume and device that keep the configuration, with every replica and the plain view at
boundary `o`. -/
theorem move (h : Mounted E L g cipher s p) {v : AttachedVolume JvckMetadataStore} {burst : Option VolumeCipher}
    {d : Device} {replies : List Bytes} {o : UInt64} (code : UInt16) (state : EngineState)
    (hd : d.sectorSize = s.device.sectorSize) (hss : v.sectorSize = s.volume.sectorSize)
    (hio : v.ioConfig = s.volume.ioConfig)
    (hstore : v.offsetStore = { s.volume.offsetStore with offset := o, state := code })
    (henc : v.encryption = { s.volume.encryption.setBoundary o with state }) (hcache : v.encryptedBoundary = o)
    (hburst : burst = none ∨ burst = some cipher) (hsync : Synced L v.offsetStore d) (hreplies : replies = p'.replies)
    (hb : o.toNat ≤ g.dataSectors.toNat)
    (hplain : ∀ rel, rel < g.dataSectors.toNat →
      plainSector cipher g.offsetSector.toNat o.toNat d rel = p'.plain rel) :
    Mounted E L g cipher ⟨v, d, burst, replies⟩ p' := by
  obtain ⟨hoff, htot⟩ := offsetSector_congr hio
  obtain ⟨sectorSize, ioConfig, encryption, offsetStore, encryptedBoundary, cipherCalls⟩ := v
  obtain rfl : offsetStore = _ := hstore
  obtain rfl : encryption = _ := henc
  obtain rfl : encryptedBoundary = o := hcache
  refine ⟨?_, h.replicas, h.codec, h.vmk, h.supplier, ?_, ⟨?_, hburst⟩, hsync, ?_, h.offset, h.total,
    ⟨hoff.trans h.config.1, htot.trans h.config.2⟩, rfl, ⟨rfl, ?_, ?_⟩, hreplies⟩
  · exact h.geometry.trans (congrArg L.geometry hd.symm)
  · change LawfulCipher d.sectorSize.toNat cipher
    rw [hd]
    exact h.lawful
  · rw [AttachedVolume.cipherSupplier, hio]
    exact h.keyed.supplier
  · exact hss.trans (h.sectorSize.trans hd.symm)
  · change encryptedBoundary.toNat ≤ s.volume.encryption.encryptedOffset.totalSectors.toNat
    rw [h.total]
    exact hb
  · intro rel hr
    change rel < s.volume.encryption.encryptedOffset.totalSectors.toNat at hr
    rw [h.total] at hr
    change plainSector cipher s.volume.encryption.offsetSector.toNat encryptedBoundary.toNat d rel = p'.plain rel
    rw [h.offset]
    exact hplain rel hr

/-- A request: the volume keeps its fields and the device changes inside the data region. -/
theorem request (h : Mounted E L g cipher s p) {v : AttachedVolume JvckMetadataStore} {burst : Option VolumeCipher}
    {d : Device} {replies : List Bytes} (hv : SamePath s.volume v) (hburst : burst = none ∨ burst = some cipher)
    (hframe : Frame L.InData s.device d) (hreplies : replies = p'.replies)
    (hplain : ∀ rel, rel < g.dataSectors.toNat →
      plainSector cipher g.offsetSector.toNat s.volume.encryptedBoundary.toNat d rel = p'.plain rel) :
    Mounted E L g cipher ⟨v, d, burst, replies⟩ p' := by
  have hsync : Synced L v.offsetStore d := by
    rw [hv.offsetStore]
    exact h.synced.frame hframe fun i hi => L.metaLba_not_data hi
  refine h.move s.volume.offsetStore.state s.volume.encryption.state hframe.sectorSize hv.sectorSize hv.ioConfig ?_ ?_
    hv.encryptedBoundary hburst hsync hreplies h.boundary.2 hplain
  · rw [hv.offsetStore, ← h.boundary.1, ← h.stored]
  · rw [hv.encryption, ← h.boundary.1]
    rfl

/-- Re-sealing the replicas at boundary `o` after changes `s.device` to `d₁` inside the data region. -/
theorem reseal (h : Mounted E L g cipher s p) {v : AttachedVolume JvckMetadataStore} {d₁ d₂ : Device} {o : UInt64}
    (code : UInt16) (state : EngineState) (hin : Frame L.InData s.device d₁)
    (hw : ({ s.volume.offsetStore with offset := o, state := code } : JvckMetadataStore).writeAllReplicas d₁ =
      (.ok (), d₂))
    (hstore : v.offsetStore = { s.volume.offsetStore with offset := o, state := code })
    (hss : v.sectorSize = s.volume.sectorSize) (hio : v.ioConfig = s.volume.ioConfig)
    (henc : v.encryption = { s.volume.encryption.setBoundary o with state }) (hcache : v.encryptedBoundary = o)
    (hb : o.toNat ≤ g.dataSectors.toNat)
    (hplain : ∀ rel, rel < g.dataSectors.toNat →
      plainSector cipher g.offsetSector.toNat o.toNat d₁ rel = p.plain rel) :
    Mounted E L g cipher ⟨v, d₂, s.burst, s.replies⟩ p := by
  have hsync₁ := h.synced.frame hin fun i hi => L.metaLba_not_data hi
  obtain ⟨hframe, hsync⟩ := writeAllReplicas_spec
    (s := { s.volume.offsetStore with offset := o, state := code }) hsync₁.on hw
  refine h.move code state (hframe.sectorSize.trans hin.sectorSize) hss hio hstore henc hcache h.keyed.burst ?_
    h.replies hb ?_
  · rw [hstore]
    exact hsync h.synced.options rfl
  · intro rel hr
    rw [plainSector_frame hframe, hplain rel hr]
    rintro ⟨i, hi, he⟩
    exact L.metaLba_not_data hi (he ▸ h.inData_iff.mpr hr)

/-- The engine alone changes its state. -/
theorem setState (h : Mounted E L g cipher s p) (state : EngineState) :
    Mounted E L g cipher { s with volume := { s.volume with encryption := { s.volume.encryption with state } } } p :=
  ⟨h.geometry, h.replicas, h.codec, h.vmk, h.supplier, h.lawful, ⟨h.keyed.supplier, h.keyed.burst⟩, h.synced,
    h.sectorSize, h.offset, h.total, h.config, h.stored, ⟨h.coherent.cache, h.coherent.bounded, h.coherent.divide⟩,
    h.replies⟩

/-! ### One lemma per operation -/

theorem covers (h : Mounted E L g cipher s p) {irp : Irp} (hin : InDataRegion g irp) :
    irp.Covers s.device.ss (irp.byteOffset.toNat / s.device.ss) (irp.length.toNat / s.device.ss) ∧
      g.offsetSector.toNat ≤ irp.byteOffset.toNat / s.device.ss ∧
      irp.byteOffset.toNat / s.device.ss + irp.length.toNat / s.device.ss ≤
        g.offsetSector.toNat + g.dataSectors.toNat := by
  rw [InDataRegion, h.ss_eq] at hin
  obtain ⟨h₁, h₂, h₃, h₄, h₅⟩ := hin
  have hlen : irp.length.toNat = irp.length.toNat / s.device.ss * s.device.ss :=
    (Nat.div_mul_cancel (Nat.dvd_of_mod_eq_zero h₂)).symm
  exact ⟨⟨(Nat.div_mul_cancel (Nat.dvd_of_mod_eq_zero h₁)).symm, hlen, h₃.trans hlen⟩, h₄, h₅⟩

theorem read (h : Mounted E L g cipher s p) {irp : Irp} (hs : step E g s (.read irp) = some s') :
    Mounted E L g cipher s' (p.apply g (.read irp)) := by
  simp only [step] at hs
  generalize hr : processRead s.volume s.burst irp s.device = w at hs
  obtain ⟨c, burst, v⟩ := w
  by_cases hok : InDataRegion g irp ∧ c.status = .success
  · simp only [hok.1, hok.2, and_self, if_true] at hs
    obtain rfl := Option.some.inj hs
    obtain ⟨hcov, hlo, hhi⟩ := h.covers hok.1
    obtain ⟨hsame, hkey, hreply⟩ := processRead_spec hcov h.sectorSize h.ss_pos h.lawful h.keyed
      (by rw [h.config.1]; exact hlo) (by rw [h.config.2]; exact h.boundary.2) hr hok.2
    refine h.request hsame hkey.burst (.refl _ _) ?_ fun rel hrel => h.plain_eq hrel
    rw [hreply, h.replies, h.config.1]
    simp only [PlainVolume.apply, relOf, h.ss_eq]
    congr 2
    apply List.flatMap_congr
    intro k hk
    have hk := List.mem_range.mp hk
    exact h.plain_eq (by omega)
  · rw [if_neg hok] at hs
    cases hs

theorem write (h : Mounted E L g cipher s p) {irp : Irp} (hs : step E g s (.write irp) = some s') :
    Mounted E L g cipher s' (p.apply g (.write irp)) := by
  simp only [step] at hs
  generalize hw : processWrite s.volume s.burst irp s.device = w at hs
  obtain ⟨c, burst, v, d⟩ := w
  by_cases hok : InDataRegion g irp ∧ c.status = .success
  · simp only [hok.1, hok.2, and_self, if_true] at hs
    obtain rfl := Option.some.inj hs
    obtain ⟨hcov, hlo, hhi⟩ := h.covers hok.1
    obtain ⟨hsame, hkey, hframe, hplain⟩ := processWrite_spec hcov h.sectorSize h.ss_pos h.lawful h.keyed
      (by rw [h.config.1]; exact hlo) (by rw [h.config.2]; exact h.boundary.2) hw hok.2
    rw [h.config.1] at hplain
    refine h.request hsame hkey.burst (hframe.mono ?_) h.replies ?_
    · rintro l ⟨h₁, h₂⟩
      obtain ⟨rel, rfl⟩ : ∃ rel, l = g.offsetSector.toNat + rel := ⟨l - g.offsetSector.toNat, by omega⟩
      exact h.inData_iff.mpr (by omega)
    · intro rel hrel
      simp only [PlainVolume.apply, relOf, h.ss_eq]
      by_cases hin : irp.byteOffset.toNat / s.device.ss - g.offsetSector.toNat ≤ rel ∧
          rel < irp.byteOffset.toNat / s.device.ss - g.offsetSector.toNat + irp.length.toNat / s.device.ss
      · obtain ⟨k, rfl⟩ : ∃ k, rel = irp.byteOffset.toNat / s.device.ss - g.offsetSector.toNat + k :=
          ⟨rel - (irp.byteOffset.toNat / s.device.ss - g.offsetSector.toNat), by omega⟩
        rw [if_pos hin, Nat.add_sub_cancel_left]
        exact hplain k (by omega)
      · rw [if_neg hin, plainSector_frame hframe (by omega)]
        exact h.plain_eq hrel
  · rw [if_neg hok] at hs
    cases hs

theorem sweep (h : Mounted E L g cipher s p) {batchSectors : UInt64}
    (hs : step E g s (.sweep batchSectors) = some s') : Mounted E L g cipher s' p := by
  simp only [step] at hs
  by_cases hdue : ∃ c b, s.volume.nextCipher = some c ∧ nextBatch c batchSectors s.volume.encryption = some b
  · obtain ⟨c, b, hn, hb⟩ := hdue
    obtain rfl := nextCipher_eq h.supplies hn
    obtain ⟨hfit, hdir⟩ := nextBatch_cases h.coherent.bounded hb
    have hwithin := hfit.within
    obtain ⟨hio, -, -, hss, -⟩ := acquired_fields s.volume
    rcases sweepStep_batch (S := jvckOffsetStore E.primitives) h.lawful h.attached h.coherent.bounded hn hb with
      ⟨-, err, hstep⟩ | ⟨-, d', r, state, hrew, hiff, hstep⟩
    · rw [hstep] at hs
      cases hs
    · rw [hstep] at hs
      cases r with
      | error err => cases hs
      | ok more =>
        obtain rfl := Option.some.inj hs
        have hpersists := hiff.mp ⟨more, rfl⟩
        rw [persist_of_persists b.finished hpersists]
        refine h.reseal (o := b.boundary) s.volume.offsetStore.state state ?_ (Prod.ext hpersists.1 rfl) rfl hss hio
          rfl rfl ?_ ?_
        · apply hrew.frame.mono
          rintro l ⟨h₁, h₂⟩
          rw [h.offset] at h₁ h₂
          obtain ⟨rel, rfl⟩ : ∃ rel, l = g.offsetSector.toNat + rel := ⟨l - g.offsetSector.toNat, by omega⟩
          rw [h.total] at hwithin
          exact h.inData_iff.mpr (by omega)
        · rw [← h.total]
          exact hfit.bounded
        · intro rel hrel
          rw [h.offset] at hrew
          rw [Batch.plainSector_eq h.lawful hdir hrew rel, ← h.plain_eq hrel, ← h.boundary.1]
          rfl
  · obtain ⟨v', hstep, hio, ⟨state, henc⟩, hcache, hss, hst⟩ :=
      sweepStep_idle (S := jvckOffsetStore E.primitives) (d := s.device) hdue
    rw [hstep] at hs
    obtain rfl := Option.some.inj hs
    have hsame : SamePath { s.volume with encryption := { s.volume.encryption with state } } v' := by
      refine ⟨hss, hio, henc, hst, ?_⟩
      rcases hcache with hcache | hcache
      · exact hcache
      · exact hcache.trans h.boundary.1
    have h' := h.setState state
    exact h'.request hsame h.keyed.burst (.refl _ _) h.replies fun rel hrel => h.plain_eq hrel

theorem turn (h : Mounted E L g cipher s p) {direction : VolumeState}
    {start : EncryptedOffsetStore JvckMetadataStore → EncryptionEngine → JvckMetadataStore → Device →
      EncryptionEngine × JvckMetadataStore × Device}
    (hstart : ∀ S e st d,
      start S e st d = ({ e with state := e.startState direction }, (S.storeState st d direction).2))
    (hs : turn E s direction start = some s') : Mounted E L g cipher s' p := by
  simp only [Transparency.turn, hstart] at hs
  cases hst : (s.volume.offsetStore.storeState s.device direction).1 with
  | error e =>
    rw [hst] at hs
    cases hs
  | ok u =>
    rw [hst] at hs
    obtain rfl := Option.some.inj hs
    have hoffset : { s.volume.offsetStore with state := direction.asU16 } =
        ({ s.volume.offsetStore with offset := s.volume.encryptedBoundary, state := direction.asU16 } :
          JvckMetadataStore) := by
      rw [← h.boundary.1, ← h.stored]
    have hengine : s.volume.encryption.setBoundary s.volume.encryptedBoundary = s.volume.encryption := by
      rw [← h.boundary.1]
      rfl
    refine h.reseal (o := s.volume.encryptedBoundary) direction.asU16 (s.volume.encryption.startState direction)
      (.refl _ _) ?_ hoffset rfl rfl ?_ rfl h.boundary.2
      fun rel hrel => h.plain_eq hrel
    · rw [← hoffset]
      exact Prod.ext hst rfl
    · rw [hengine]

end Mounted

end Steps

/-! ## Attaching again -/

/-- Phase A sees a replica first: there is a footer, or the last sector does not look like a Metadata block. -/
def Reopens (P : Primitives) (L : Layout) (s : Sys) : Op → Prop
  | .reattach _ => 0 < L.footers ∨
      JvckMetadata.verifyCrc P (blockAt s.device (s.device.sectors - 1)).toList ≠ .ok ()
  | _ => True

section Reattach

variable {E : Env} {L : Layout} {g : Geometry} {cipher : VolumeCipher} {s s' : Sys} {p : PlainVolume}

/-- Phase A of a synced volume, with or without a footer. -/
theorem openReader_of_synced {P : Primitives} {st : JvckMetadataStore} {d : Device} (hsync : Synced L st d)
    (hc : LawfulCodec P st.codec) (hcount : 0 < L.count)
    (hlast : 0 < L.footers ∨ JvckMetadata.verifyCrc P (blockAt d (d.sectors - 1)).toList ≠ .ok ())
    {reader : JvckMetadataReader} (hopen : JvckMetadataReader.openReader P d = .ok reader) :
    reader = readerOf st.header L d := by
  have htotal : L.total = d.sectors := hsync.on.total
  have hn : 0 < d.sectors := by
    have := L.fits
    omega
  obtain ⟨hreadLast, hreadFirst⟩ := readable_of_openReader hsync.on.ss hn hopen
  by_cases hf : 0 < L.footers
  · have hseal := hsync.replicas (L.count - 1) (by omega)
    rw [L.metaLba_last hf, htotal] at hseal
    have := openReader_of_last (K := suiteOf st) hc hsync.layoutOf ⟨hreadLast, hseal⟩
    exact Except.ok.inj (hopen.symm.trans this)
  · have hbad := hlast.resolve_left hf
    have hh : 0 < L.headers := by
      rw [Layout.count] at hcount
      omega
    have hseal := hsync.replicas 0 hcount
    rw [L.metaLba_first hh] at hseal
    have := openReader_of_first (K := suiteOf st) hc hsync.layoutOf hreadLast hbad ⟨hreadFirst hbad, hseal⟩
    exact Except.ok.inj (hopen.symm.trans this)

/-- The replicas that a reader could read. -/
theorem readFault_of_readBlock {placement : Placement} {d : Device} (hon : On placement L d)
    (hall : placement.lbas.all fun lba => (readBlock d placement.geometry.sectorSize lba).isOk) {i : Nat}
    (hi : i < L.count) :
    d.readFault (L.metaLba i) = false := by
  rw [hon.lbas, List.all_map, List.all_eq_true] at hall
  have hone := hall i (List.mem_range.mpr hi)
  simp only [Function.comp_apply, hon.readBlock hi] at hone
  cases hf : d.readFault (L.metaLba i) with
  | false => rfl
  | true =>
    rw [hf] at hone
    cases hone

/-- The volume that attaching a synced device gives. -/
theorem attach_of_synced {st : JvckMetadataStore} {d : Device} (hsync : Synced L st d)
    (hcodec : st.codec = jvckCbcCodec E.primitives) (hvmk : st.vmk = E.vmk) (hcount : 0 < L.count)
    (hread : ∀ i, i < L.count → d.readFault (L.metaLba i) = false)
    (hopen : JvckMetadataReader.openReader E.primitives d = .ok (readerOf st.header L d)) (resume : Bool) :
    ∃ state, attach E resume d = .ok
      { sectorSize := d.sectorSize
        ioConfig := .encrypted (some (E.supplierOf st.secrets)) st.geometry.offsetSector
          ⟨st.offset, st.geometry.dataSectors⟩
        encryption := ⟨st.geometry.offsetSector, ⟨st.offset, st.geometry.dataSectors⟩, state⟩
        offsetStore := { st with state := (VolumeState.fromU16 st.state).asU16 }
        encryptedBoundary := st.offset
        cipherCalls := 0 } := by
  have hc : LawfulCodec E.primitives st.codec := by
    rw [hcodec]
    exact jvckCbcCodec_lawful _
  have hstore : JvckMetadataStore.openStore E.primitives d E.vmk =
      .ok { st with state := (VolumeState.fromU16 st.state).asU16 } := by
    rw [JvckMetadataStore.openStore, openWith_eq hopen, ← hcodec, ← hvmk]
    exact hsync.intoStore hc hcount hread
  have hload := hsync.normalised.loadOffset hc hcount hread
  have hattach : onAttach E d = .ok (st.geometry.offsetSector, ⟨st.offset, st.geometry.dataSectors⟩,
      { st with state := (VolumeState.fromU16 st.state).asU16 }) :=
    onAttach_ok_iff.mpr ⟨hstore, rfl, _, hload, rfl⟩
  rw [attach, hattach]
  cases resume with
  | true => exact ⟨_, rfl⟩
  | false => exact ⟨_, rfl⟩

theorem Mounted.reattach (h : Mounted E L g cipher s p) {resume : Bool}
    (hre : Reopens E.primitives L s (.reattach resume)) (hs : step E g s (.reattach resume) = some s') :
    Mounted E L g cipher s' p := by
  have hc : LawfulCodec E.primitives s.volume.offsetStore.codec := by
    rw [h.codec]
    exact jvckCbcCodec_lawful _
  simp only [step] at hs
  cases hopen : JvckMetadataReader.openReader E.primitives s.device with
  | error e =>
    rw [hopen] at hs
    cases hs
  | ok reader =>
    obtain rfl := openReader_of_synced h.synced hc h.replicas hre hopen
    by_cases hall : (readerOf s.volume.offsetStore.header L s.device).lbas.all fun lba =>
        (readBlock s.device (readerOf s.volume.offsetStore.header L s.device).geometry.sectorSize lba).isOk
    · have hread : ∀ i, i < L.count → s.device.readFault (L.metaLba i) = false :=
        fun i hi => readFault_of_readBlock (readerOf_on h.synced.layoutOf) hall hi
      obtain ⟨state, hattach⟩ := attach_of_synced h.synced h.codec h.vmk h.replicas hread hopen resume
      rw [hopen, hattach] at hs
      simp only [hall, if_true] at hs
      obtain rfl := Option.some.inj hs
      have hgeo : s.volume.offsetStore.geometry = g := by
        rw [h.geometry]
        exact h.synced.on.geometry
      have hboundary : s.volume.offsetStore.offset = s.volume.encryptedBoundary := h.stored.trans h.boundary.1
      refine ⟨h.geometry, h.replicas, h.codec, h.vmk, h.supplier, h.lawful, ⟨⟨_, rfl, h.supplier⟩, .inl rfl⟩,
        h.synced.normalised, rfl, ?_, ?_, ?_, rfl, ⟨rfl, ?_, ?_⟩, h.replies⟩
      · exact congrArg Geometry.offsetSector hgeo
      · exact congrArg Geometry.dataSectors hgeo
      · exact ⟨congrArg Geometry.offsetSector hgeo, congrArg Geometry.dataSectors hgeo⟩
      · change s.volume.offsetStore.offset.toNat ≤ s.volume.offsetStore.geometry.dataSectors.toNat
        rw [hboundary, hgeo]
        exact h.boundary.2
      · intro rel hrel
        change rel < s.volume.offsetStore.geometry.dataSectors.toNat at hrel
        change plainSector cipher s.volume.offsetStore.geometry.offsetSector.toNat s.volume.offsetStore.offset.toNat
          s.device rel = p.plain rel
        rw [hgeo] at hrel ⊢
        rw [hboundary]
        exact h.plain_eq hrel
    · cases hattach : attach E resume s.device with
      | error e =>
        rw [hopen, hattach] at hs
        cases hs
      | ok v =>
        rw [hopen, hattach] at hs
        simp only [hall, Bool.false_eq_true, if_false] at hs
        cases hs

/-- Attaching does not write. -/
theorem step_reattach_device {resume : Bool} (hs : step E g s (.reattach resume) = some s') :
    s'.device = s.device := by
  simp only [step] at hs
  split at hs
  · split at hs
    · rw [← Option.some.inj hs]
    · cases hs
  · cases hs

/-- Every operation does to the system what it does to the abstract volume. -/
theorem step_mounted {op : Op} (h : Mounted E L g cipher s p) (hre : Reopens E.primitives L s op)
    (hs : step E g s op = some s') : Mounted E L g cipher s' (p.apply g op) := by
  cases op with
  | read irp => exact h.read hs
  | write irp => exact h.write hs
  | sweep batchSectors => exact h.sweep hs
  | startEncrypt => exact h.turn (fun _ _ _ _ => rfl) hs
  | startDecrypt => exact h.turn (fun _ _ _ _ => rfl) hs
  | pause =>
    obtain rfl := Option.some.inj hs
    have hpause : ∃ state, s.volume.encryption.pause = { s.volume.encryption with state } := by
      unfold EncryptionEngine.pause
      split
      · exact ⟨_, rfl⟩
      · exact ⟨_, rfl⟩
      · exact ⟨_, rfl⟩
    obtain ⟨state, hstate⟩ := hpause
    rw [hstate]
    exact h.setState state
  | endBurst =>
    obtain rfl := Option.some.inj hs
    exact h.request (.refl _) (.inl rfl) (.refl _ _) h.replies fun rel hrel => h.plain_eq hrel
  | reattach resume => exact h.reattach hre hs

/-- Over every run of successful operations whose re-attachments see a replica first, the plain view is
the abstract volume and every read was answered with its plaintext. -/
theorem transparent_runs (h : Mounted E L g cipher s p) {ops : List Op}
    (hre : StepRun.Along (step E g) (Reopens E.primitives L) s ops) (hrun : StepRun.run (step E g) s ops = some s') :
    (∀ rel, rel < g.dataSectors.toNat →
      plainSector cipher g.offsetSector.toNat s'.volume.encryptedBoundary.toNat s'.device rel =
        (ops.foldl (PlainVolume.apply g) p).plain rel) ∧
      s'.replies = (ops.foldl (PlainVolume.apply g) p).replies := by
  have hfin := StepRun.run_simulates_along (R := Mounted E L g cipher) (PlainVolume.apply g) step_mounted h hre hrun
  exact ⟨fun rel hrel => hfin.plain_eq hrel, hfin.replies⟩

/-! ## Progress on a healthy device -/

theorem Mounted.read_succeeds (h : Mounted E L g cipher s p) (hd : Healthy s.device) {irp : Irp}
    (hin : InDataRegion g irp) (hmap : irp.mapped = true ∧ irp.allocated = true) :
    ∃ s', step E g s (.read irp) = some s' := by
  obtain ⟨hcov, -, hhi⟩ := h.covers hin
  have hfits := h.region_le
  have hok := processRead_success s.burst hcov h.sectorSize h.ss_pos hmap
    ⟨by omega, fun i _ => hd.readFault _⟩
  simp only [step]
  exact ⟨_, if_pos ⟨hin, hok.1⟩⟩

theorem Mounted.write_succeeds (h : Mounted E L g cipher s p) (hd : Healthy s.device) {irp : Irp}
    (hin : InDataRegion g irp) (hmap : irp.mapped = true ∧ irp.allocated = true) :
    ∃ s', step E g s (.write irp) = some s' ∧ Healthy s'.device ∧ SamePath s.volume s'.volume := by
  obtain ⟨hcov, hlo, hhi⟩ := h.covers hin
  have hfits := h.region_le
  have hoff : s.volume.offsetSector.toNat ≤ irp.byteOffset.toNat / s.device.ss := by
    rw [h.config.1]
    exact hlo
  have hle : s.volume.encryptedBoundary.toNat ≤ s.volume.dataSectors.toNat := by
    rw [h.config.2]
    exact h.boundary.2
  have hok := processWrite_success hcov h.sectorSize h.ss_pos h.lawful h.keyed hoff hle hmap
    ⟨by omega, fun i _ => hd.writeFault _⟩
  obtain ⟨hsame, -, hframe, -⟩ := processWrite_spec hcov h.sectorSize h.ss_pos h.lawful h.keyed hoff hle rfl hok
  simp only [step]
  exact ⟨_, if_pos ⟨hin, hok⟩, hd.frame hframe, hsame⟩

/-- A healthy device can always be attached again. -/
theorem Mounted.reattach_succeeds (h : Mounted E L g cipher s p) (hd : Healthy s.device) {resume : Bool}
    (hre : Reopens E.primitives L s (.reattach resume)) : ∃ s', step E g s (.reattach resume) = some s' := by
  have hc : LawfulCodec E.primitives s.volume.offsetStore.codec := by
    rw [h.codec]
    exact jvckCbcCodec_lawful _
  have hread : ∀ i, i < L.count → s.device.readFault (L.metaLba i) = false := fun i _ => hd.readFault _
  have hopen : JvckMetadataReader.openReader E.primitives s.device =
      .ok (readerOf s.volume.offsetStore.header L s.device) := by
    by_cases hf : 0 < L.footers
    · exact (h.synced.reopen hc hf hread).1
    · have hh : 0 < L.headers := by
        have := h.replicas
        rw [Layout.count] at this
        omega
      have hseal := h.synced.replicas 0 h.replicas
      rw [L.metaLba_first hh] at hseal
      exact openReader_of_first (K := suiteOf s.volume.offsetStore) hc h.synced.layoutOf (hd.readFault _)
        (hre.resolve_left hf) ⟨hd.readFault _, hseal⟩
  obtain ⟨state, hattach⟩ := attach_of_synced h.synced h.codec h.vmk h.replicas hread hopen resume
  have hon := readerOf_on h.synced.layoutOf
  have hall : (readerOf s.volume.offsetStore.header L s.device).lbas.all fun lba =>
      (readBlock s.device (readerOf s.volume.offsetStore.header L s.device).geometry.sectorSize lba).isOk := by
    rw [hon.lbas, List.all_map, List.all_eq_true]
    intro i hi
    simp only [Function.comp_apply, hon.readBlock (List.mem_range.mp hi), hd.readFault]
    rfl
  simp only [step, hopen, hattach]
  exact ⟨_, if_pos hall⟩

section OneReplica

variable {P : Primitives} {d : Device} {header : JvckMetadata.JvckHeader} {secrets : JvckSecrets} {o : UInt64}
  {state : VolumeState} {salt : Fixed 16} {vmk : Bytes}

/-- A single replica in sector 0 is read whatever header the store took its layout from. -/
theorem loadOffset_of_sector_zero {st : JvckMetadataStore} (hcodec : st.codec = jvckCbcCodec P) (hvmk : st.vmk = vmk)
    (hlbas : st.lbas = [0]) (hread : readBlock d st.geometry.sectorSize 0 = .ok (blockAt d 0))
    (hseal : (jvckCbcCodec P).sealPayload header secrets o state salt vmk = .ok (blockAt d 0)) :
    st.loadOffset P d = .ok o := by
  have hlawful := jvckCbcCodec_lawful P
  have hv := JvckMetadata.verifyCrc_of_parse (hlawful.parse hseal)
  have hoffset : (jvckCbcCodec P).readOffset (st.ctx st.header d 0 (blockAt d 0)) vmk = .ok o :=
    hlawful.readOffset hseal (st.ctx header d 0 (blockAt d 0)) rfl rfl
  rw [JvckMetadataStore.loadOffset, hlbas]
  simp only [JvckMetadataStore.loadLoop, hread, hv, hcodec, hvmk, hoffset]
  rfl

theorem openStore_of_sector_zero {reader : JvckMetadataReader} (hopen : JvckMetadataReader.openReader P d = .ok reader)
    (hlbas : reader.lbas = [0]) (hread : readBlock d reader.geometry.sectorSize 0 = .ok (blockAt d 0))
    (hseal : (jvckCbcCodec P).sealPayload header secrets o state salt vmk = .ok (blockAt d 0)) :
    ∃ st, JvckMetadataStore.openStore P d vmk = .ok st ∧ st.toPlacement = reader.toPlacement ∧
      st.loadOffset P d = .ok o := by
  have hlawful := jvckCbcCodec_lawful P
  have hv := JvckMetadata.verifyCrc_of_parse (hlawful.parse hseal)
  have hunseal : (jvckCbcCodec P).unsealPayload (reader.ctx reader.header d 0 (blockAt d 0)) vmk =
      .ok ⟨o, state, secrets⟩ := hlawful.unsealed hseal (reader.ctx header d 0 (blockAt d 0)) rfl rfl
  have hselect : selectWith (jvckCbcCodec P) vmk (reader.ctx reader.header d 0 (blockAt d 0)) =
      .ok (jvckCbcCodec P, ⟨o, state, secrets⟩) := by
    rw [selectWith, hunseal]
    rfl
  rw [JvckMetadataStore.openStore, openWith_eq hopen, JvckMetadataReader.intoStore, hlbas]
  simp only [JvckMetadataReader.selectLoop, hread, hv, hselect]
  exact ⟨_, rfl, rfl, loadOffset_of_sector_zero rfl rfl hlbas hread hseal⟩

end OneReplica

/-- Without a footer, a Metadata block that stands in the last data sector decides the layout: attaching
takes the geometry of its header and the keys of the replica in sector 0. -/
theorem attach_foreign_layout {st : JvckMetadataStore} {d : Device} (hsync : Synced L st d)
    (hcodec : st.codec = jvckCbcCodec E.primitives) (hvmk : st.vmk = E.vmk) (hd : Healthy d) (hh : 0 < L.headers)
    {header : JvckMetadata.JvckHeader} {L' : Layout}
    (hparse : JvckMetadata.parse E.primitives (blockAt d (d.sectors - 1)).toList = .ok header)
    (hL' : L'.Of d.sectorSize d.totalSectors (JvckMetadataReader.optionsOf header))
    (hone : L'.headers = 1 ∧ L'.footers = 0) :
    JvckMetadataReader.openReader E.primitives d = .ok (readerOf header L' d) ∧
      ((readerOf header L' d).lbas.all fun lba =>
        (readBlock d (readerOf header L' d).geometry.sectorSize lba).isOk) ∧
      ∃ v, attach E false d = .ok v ∧ v.offsetSector = (L'.geometry d.sectorSize).offsetSector ∧
        v.sectorSize = d.sectorSize := by
  have hn : 0 < d.sectors := by
    have := L.fits
    have := hsync.on.total
    omega
  have hon := readerOf_on hL'
  have hcount : L'.count = 1 := by
    rw [Layout.count, hone.1, hone.2]
  have hzero : L'.metaLba 0 = 0 := L'.metaLba_first (by omega)
  have hlbas : (readerOf header L' d).lbas = [0] := by
    rw [hon.lbas, hcount, List.range_one, List.map_singleton, hzero]
    rfl
  have hread : readBlock d (readerOf header L' d).geometry.sectorSize 0 = .ok (blockAt d 0) := by
    have := hon.readBlock (i := 0) (by omega)
    rw [hzero, hd.readFault, if_neg (by simp)] at this
    exact this
  have hopen : JvckMetadataReader.openReader E.primitives d = .ok (readerOf header L' d) := by
    rw [JvckReplicas.openReader_eq hsync.on.ss hn, hd.readFault, if_neg (by simp),
      if_pos (JvckMetadata.verifyCrc_of_parse hparse)]
    exact openBlock_eq hparse hL'
  obtain ⟨salt, hseal⟩ := hsync.replicas 0 (by rw [Layout.count]; omega)
  rw [L.metaLba_first hh, suiteOf, hcodec, hvmk] at hseal
  obtain ⟨st', hstore, hplace, hload⟩ := openStore_of_sector_zero hopen hlbas hread hseal
  refine ⟨hopen, by rw [hlbas, List.all_cons, hread]; rfl, ?_⟩
  rw [attach, onAttach, hstore]
  change ∃ v, ((JvckMetadataStore.loadOffset E.primitives st' d >>= _) >>= _) = Except.ok v ∧ _
  rw [hload]
  exact ⟨_, rfl, congrArg (fun p : Placement => p.geometry.offsetSector) hplace, rfl⟩

end Reattach

/-! ## A volume with one header replica -/

section Sample

/-- Flip the lowest bit of every byte. -/
def flipCipher : VolumeCipher where
  encryptSector := fun _ s => s.map (· ^^^ 1)
  decryptSector := fun _ s => s.map (· ^^^ 1)
  encryptArea := fun buf _ _ => buf.map (· ^^^ 1)
  decryptArea := fun buf _ _ => buf.map (· ^^^ 1)

theorem flipCipher_lawful (ss : Nat) : LawfulCipher ss flipCipher := by
  have harea : AreaLaw ss flipCipher.encryptArea flipCipher.encryptSector := by
    constructor
    · intro buf first
      exact List.length_map _
    · intro buf first k n _ _
      simp only [flipCipher, slice, List.map_drop, List.map_take]
  refine ⟨?_, harea, harea⟩
  intro rel s _
  simp only [flipCipher, List.map_map]
  have hid : ((· ^^^ 1) ∘ (· ^^^ 1) : UInt8 → UInt8) = id := by
    funext x
    change x ^^^ 1 ^^^ 1 = x
    rw [UInt8.xor_assoc, UInt8.xor_self, UInt8.xor_zero]
  rw [hid, List.map_id]

/-- One header replica of 128 KiB on 1024 sectors of 512 bytes. -/
def oneHeader : Layout := ⟨256, 1, 0, 1024, twoFooters.replica_pos, by decide⟩

/-- The same with a replica of 256 KiB. -/
def wideHeader : Layout := ⟨512, 1, 0, 1024, by decide, by decide⟩

/-- A store with one header replica, at boundary 1. -/
def headerStore : JvckMetadataStore :=
  { JvckRecovery.sampleStore 1 .encrypt with
    options := ⟨1, 0, 131072⟩
    geometry := oneHeader.geometry 512
    header :=
      { (JvckRecovery.sampleStore 1 .encrypt).header with headerReplicaCount := 1, footerReplicaCount := 0 } }

/-- A zeroed volume on which the store has written its replica. -/
structure Fresh (d : Device) : Prop where
  frame : Frame oneHeader.IsMeta (blank 512 1024 (by decide)) d
  synced : Synced oneHeader headerStore d
  healthy : Healthy d

theorem halfMebibyte_addressable : (1024 : UInt64).toNat * (512 : UInt32).toNat < 2 ^ 64 := by decide

def headerDevice : Device := (headerStore.writeAllReplicas (blank 512 1024 halfMebibyte_addressable)).2

theorem headerDevice_fresh : Fresh headerDevice := by
  have hL : oneHeader.Of 512 1024 ⟨1, 0, 131072⟩ :=
    ⟨by decide, by decide, by decide, by decide, by decide, by decide⟩
  have hon : On headerStore.toPlacement oneHeader (blank 512 1024 (by decide)) := ⟨hL, rfl, rfl⟩
  obtain ⟨hframe, hsync, hd⟩ := writeAllReplicas_fresh (P := JvckMetadata.standard) (blank_healthy _) hon rfl rfl
  exact ⟨hframe, hsync, hd⟩

def headerEnv : Env := ⟨JvckMetadata.standard, [1, 2, 3], fun _ => ⟨fun _ => some flipCipher⟩⟩

/-- The volume attached at boundary 1. -/
def headerVolume : AttachedVolume JvckMetadataStore where
  sectorSize := 512
  ioConfig := .encrypted (some ⟨fun _ => some flipCipher⟩) 256 ⟨1, 768⟩
  encryption := ⟨256, ⟨1, 768⟩, .idle⟩
  offsetStore := headerStore
  encryptedBoundary := 1
  cipherCalls := 0

def headerSys (d : Device) : Sys := ⟨headerVolume, d, none, []⟩

def headerPlain (d : Device) : PlainVolume := ⟨plainSector flipCipher 256 1 d, []⟩

variable {d : Device}

theorem Fresh.mounted (h : Fresh d) :
    Mounted headerEnv oneHeader (oneHeader.geometry 512) flipCipher (headerSys d) (headerPlain d) := by
  have hoffset : headerVolume.encryption.offsetSector = (oneHeader.geometry 512).offsetSector := by decide
  have htotal : headerVolume.encryption.encryptedOffset.totalSectors = (oneHeader.geometry 512).dataSectors := by
    decide
  have hbounded : headerVolume.encryption.encryptedBoundary.toNat ≤
      headerVolume.encryption.encryptedOffset.totalSectors.toNat := by decide
  refine ⟨?_, by decide, rfl, rfl, fun _ => rfl, flipCipher_lawful _, ⟨⟨_, rfl, fun _ => rfl⟩, .inl rfl⟩, h.synced, ?_,
    hoffset, htotal, ⟨hoffset, htotal⟩, rfl, ⟨rfl, hbounded, fun _ _ => rfl⟩, rfl⟩
  · exact congrArg oneHeader.geometry h.frame.sectorSize.symm
  · exact h.frame.sectorSize.symm

/-- A read of the first data sector. -/
def firstSector : Irp := ⟨256 * 512, 512, List.replicate 512 0, true, true⟩

theorem firstSector_inRegion : InDataRegion (oneHeader.geometry 512) firstSector := by
  refine ⟨by decide, by decide, ?_, by decide, by decide⟩
  exact List.length_replicate

theorem firstSector_reply (p : PlainVolume) :
    (p.apply (oneHeader.geometry 512) (.read firstSector)).replies = p.replies ++ [p.plain 0] := by
  have hrel : relOf (oneHeader.geometry 512) firstSector = 0 := by decide
  have hone : firstSector.length.toNat / (oneHeader.geometry 512).sectorSize.toNat = 1 := by decide
  rw [PlainVolume.apply, hone, hrel]
  simp

/-- The last sector of a fresh volume is zero, so Phase A goes on to the header replica. -/
theorem Fresh.reopens (h : Fresh d) (resume : Bool) :
    Reopens headerEnv.primitives oneHeader (headerSys d) (.reattach resume) := by
  refine .inr (JvckRecovery.zero_not_valid _ ?_)
  have hlast : ¬ oneHeader.IsMeta 1023 := by
    rintro ⟨i, hi, he⟩
    exact oneHeader.metaLba_not_data hi (he ▸ oneHeader.last_inData rfl)
  have hsectors : (headerSys d).device.sectors - 1 = 1023 := congrArg (· - 1) h.frame.sectors
  rw [hsectors]
  exact (h.frame.sector_eq hlast).trans (ByteMemory.load_zero _ _)

theorem Fresh.reattach_then_read (h : Fresh d) :
    ∃ s', StepRun.run (step headerEnv (oneHeader.geometry 512)) (headerSys d) [.reattach true, .read firstSector] =
      some s' := by
  obtain ⟨s₁, hs₁⟩ := h.mounted.reattach_succeeds h.healthy (h.reopens true)
  have h₁ := h.mounted.reattach (h.reopens true) hs₁
  have hd₁ : Healthy s₁.device := by
    rw [step_reattach_device hs₁]
    exact h.healthy
  obtain ⟨s₂, hs₂⟩ := h₁.read_succeeds hd₁ firstSector_inRegion ⟨rfl, rfl⟩
  exact ⟨s₂, StepRun.run_cons_eq_some.mpr ⟨s₁, hs₁, StepRun.run_cons_eq_some.mpr ⟨s₂, hs₂, rfl⟩⟩⟩

/-- Attached again, resumed and read. -/
theorem transparent_reattach :
    ∃ s', StepRun.run (step headerEnv (oneHeader.geometry 512)) (headerSys headerDevice)
        [.reattach true, .read firstSector] = some s' ∧
      s'.replies = [(headerPlain headerDevice).plain 0] := by
  have hfresh := headerDevice_fresh
  obtain ⟨s', hrun⟩ := hfresh.reattach_then_read
  have halong : StepRun.Along (step headerEnv (oneHeader.geometry 512)) (Reopens headerEnv.primitives oneHeader)
      (headerSys headerDevice) [.reattach true, .read firstSector] :=
    ⟨hfresh.reopens true, fun _ _ => ⟨trivial, fun _ _ => trivial⟩⟩
  refine ⟨s', hrun, (transparent_runs hfresh.mounted halong hrun).2.trans ?_⟩
  exact firstSector_reply (headerPlain headerDevice)

/-- A Metadata block with a wider replica, sealed like the real one. -/
def foreignBlock : Fixed 512 :=
  ⟨JvckMetadata.encode JvckMetadata.standard { headerStore.header with metadataSize := 262144 } headerStore.secrets 0
    .encrypt (List.Vector.replicate 16 0) [1, 2, 3], JvckMetadata.length_encode ..⟩

/-- A user write of that block to the last data sector. -/
def lastSector : Irp := ⟨1023 * 512, 512, foreignBlock.toList, true, true⟩

/-- The write leaves the block in the last sector and the rest of the plain view alone. -/
theorem Fresh.write_foreign (h : Fresh d) :
    ∃ s₁, step headerEnv (oneHeader.geometry 512) (headerSys d) (.write lastSector) = some s₁ ∧
      Healthy s₁.device ∧ SamePath (headerSys d).volume s₁.volume ∧
      blockAt s₁.device (s₁.device.sectors - 1) = foreignBlock := by
  have hin : InDataRegion (oneHeader.geometry 512) lastSector := by
    refine ⟨by decide, by decide, ?_, by decide, by decide⟩
    exact List.Vector.toList_length _
  obtain ⟨s₁, hs₁, hd₁, hsame⟩ := h.mounted.write_succeeds h.healthy hin ⟨rfl, rfl⟩
  have h₁ := h.mounted.write hs₁
  have hss : s₁.device.ss = 512 := h₁.ss_eq.symm
  have htotal : s₁.device.sectors = 1024 := h₁.synced.on.total.symm
  have hboundary : s₁.volume.encryptedBoundary = 1 := hsame.encryptedBoundary
  refine ⟨s₁, hs₁, hd₁, hsame, ?_⟩
  have hplain := h₁.plain_eq (show 767 < (oneHeader.geometry 512).dataSectors.toNat by decide)
  rw [hboundary] at hplain
  have hsector : s₁.device.sector 1023 = foreignBlock.toList := by
    have hrel : relOf (oneHeader.geometry 512) lastSector = 767 := by decide
    have hone : lastSector.length.toNat / (oneHeader.geometry 512).sectorSize.toNat = 1 := by decide
    simp only [PlainVolume.apply, hrel, hone] at hplain
    have hall := slice_all foreignBlock.toList
    rw [List.Vector.toList_length] at hall
    exact hplain.trans hall
  rw [htotal]
  change Fixed.ofBytes 512 (slice (s₁.device.sector 1023) 0 512) = foreignBlock
  have hall := slice_all foreignBlock.toList
  rw [List.Vector.toList_length] at hall
  rw [hsector, hall, Fixed.ofBytes_toList]

/-- Flipping bits changes every sector. -/
theorem flip_ne {s : Bytes} (hs : 0 < s.length) : s.map (· ^^^ 1) ≠ s := by
  cases s with
  | nil => cases hs
  | cons b bs =>
    intro heq
    have hb : b ^^^ 1 = b := (List.cons.inj heq).1
    have hone : (1 : UInt8) = 0 := by
      rw [← UInt8.xor_self (a := b)]
      nth_rewrite 2 [← hb]
      rw [← UInt8.xor_assoc, UInt8.xor_self, UInt8.zero_xor]
    cases hone

/-- After the foreign block is attached, the first data sector is answered raw. -/
theorem Fresh.read_raw (h : Fresh d) :
    ∃ s₁ s', step headerEnv (oneHeader.geometry 512) (headerSys d) (.write lastSector) = some s₁ ∧
      s₁.volume.encryptedBoundary = 1 ∧
      StepRun.run (step headerEnv (oneHeader.geometry 512)) (headerSys d)
        [.write lastSector, .reattach false, .read firstSector] = some s' ∧
      s'.replies = [s₁.device.sector 256] := by
  obtain ⟨s₁, hs₁, hd₁, hsame, hblock⟩ := h.write_foreign
  have h₁ := h.mounted.write hs₁
  have hss : s₁.device.sectorSize = 512 := (congrArg Geometry.sectorSize h₁.geometry).symm
  have htotal : s₁.device.totalSectors = 1024 := UInt64.toNat_inj.mp h₁.synced.on.total.symm
  have hstore : s₁.volume.offsetStore = headerStore := hsame.offsetStore
  have hparse : JvckMetadata.parse headerEnv.primitives (blockAt s₁.device (s₁.device.sectors - 1)).toList =
      .ok { headerStore.header with metadataSize := 262144 } := by
    rw [hblock]
    exact JvckMetadata.parse_encode ..
  have hwide : wideHeader.Of s₁.device.sectorSize s₁.device.totalSectors
      (JvckMetadataReader.optionsOf { headerStore.header with metadataSize := 262144 }) := by
    rw [hss, htotal]
    exact ⟨by decide, by decide, by decide, by decide, by decide, by decide⟩
  obtain ⟨hopen, hall, v, hattach, hoff, hsize⟩ := attach_foreign_layout h₁.synced h₁.codec h₁.vmk hd₁ (by decide)
    hparse hwide ⟨rfl, rfl⟩
  have hs₂ : step headerEnv (oneHeader.geometry 512) s₁ (.reattach false) =
      some { s₁ with volume := v, burst := none } := by
    simp only [step, hopen, hattach]
    exact if_pos hall
  have hcov : firstSector.Covers s₁.device.ss 256 1 := by
    rw [Device.ss, hss]
    exact ⟨by decide, by decide, List.length_replicate⟩
  have hraw : cryptoRange v (firstSector.byteOffset / v.sectorSize.toUInt64) = none := by
    rw [cryptoRange_eq, hoff, hsize, hss]
    exact if_neg fun hin => absurd hin.1 (by decide)
  have hsectors : s₁.device.sectors = 1024 := congrArg UInt64.toNat htotal
  have hok := processRead_success (v := v) none hcov hsize h₁.ss_pos ⟨rfl, rfl⟩
    ⟨by omega, fun i _ => hd₁.readFault _⟩
  have hreplies : s₁.replies = [] := h₁.replies
  have hs₃ : step headerEnv (oneHeader.geometry 512) { s₁ with volume := v, burst := none } (.read firstSector) =
      some ⟨(processRead v none firstSector s₁.device).2.2, s₁.device,
        (processRead v none firstSector s₁.device).2.1, [s₁.device.sector 256]⟩ := by
    have harea : s₁.device.area 256 1 = s₁.device.sector 256 := by simp [Device.area]
    simp only [step]
    rw [if_pos ⟨firstSector_inRegion, hok.1⟩, hok.2 hraw, harea, hreplies]
    rfl
  exact ⟨s₁, _, hs₁, hsame.encryptedBoundary, StepRun.run_cons_eq_some.mpr ⟨_, hs₁, StepRun.run_cons_eq_some.mpr
    ⟨_, hs₂, StepRun.run_cons_eq_some.mpr ⟨_, hs₃, rfl⟩⟩⟩, rfl⟩

/-- A user stores a Metadata block in the last sector; after the next attach the first data sector is
answered with its ciphertext. -/
theorem foreign_block_breaks_transparency :
    Mounted headerEnv oneHeader (oneHeader.geometry 512) flipCipher (headerSys headerDevice)
        (headerPlain headerDevice) ∧
      ∃ s', StepRun.run (step headerEnv (oneHeader.geometry 512)) (headerSys headerDevice)
          [.write lastSector, .reattach false, .read firstSector] = some s' ∧
        s'.replies ≠ ([.write lastSector, .reattach false, .read firstSector].foldl
          (PlainVolume.apply (oneHeader.geometry 512)) (headerPlain headerDevice)).replies := by
  have hfresh := headerDevice_fresh
  obtain ⟨s₁, s', hs₁, hboundary, hrun, hreplies⟩ := hfresh.read_raw
  refine ⟨hfresh.mounted, s', hrun, ?_⟩
  have h₁ := hfresh.mounted.write hs₁
  have hplain := h₁.plain_eq (show 0 < (oneHeader.geometry 512).dataSectors.toNat by decide)
  intro heq
  rw [hreplies] at heq
  have hreply := heq.trans (firstSector_reply
    ((headerPlain headerDevice).apply (oneHeader.geometry 512) (.write lastSector)))
  have hsector := (List.cons.inj hreply).1
  rw [hboundary] at hplain
  have hflip : (s₁.device.sector 256).map (· ^^^ 1) = s₁.device.sector 256 := hplain.trans hsector.symm
  exact flip_ne (by rw [length_sector]; exact h₁.ss_pos) hflip

end Sample

end Transparency
