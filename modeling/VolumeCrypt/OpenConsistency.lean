import VolumeCrypt.OpenedStore
import VolumeCrypt.Transparency

/-!
# Whether an opened volume fits its device

Opening takes the layout from the plaintext header and the size of the device, and the
boundary from the sealed payload. It compares neither the recorded sector size with the
device's nor the boundary with the data region. `encrypt_step` stops at the end of the
data region; `decrypt_step` walks down from wherever the boundary is.
-/
namespace OpenConsistency

open ByteString VckTypes SectorIo CipherTraits JvckLayout JvckStore JvckReplicas JvckRuns SweepEngine Transparency
  OpenedStore
open JvckMetadata (Primitives JvckHeader JvckSecrets)

/-! ## An engine over its life -/

/-- What happens to an engine; in between, others use the device. -/
inductive EngineOp where
  | startEncrypt
  | startDecrypt
  | resume
  | pause
  | progress (cipher : VolumeCipher) (batchSectors : UInt64)
  | elsewhere (device : Device)

structure Sweep where
  engine : EncryptionEngine
  store : JvckMetadataStore
  device : Device

/-- One operation; a failed call leaves what it had done. The volume keeps its size. -/
def step (P : Primitives) (x : Sweep) : EngineOp → Option Sweep
  | .startEncrypt =>
    let (engine, store, device) := x.engine.startEncrypt (jvckOffsetStore P) x.store x.device
    some { engine, store, device }
  | .startDecrypt =>
    let (engine, store, device) := x.engine.startDecrypt (jvckOffsetStore P) x.store x.device
    some { engine, store, device }
  | .resume => some { x with engine := x.engine.resume (jvckOffsetStore P) x.store x.device }
  | .pause => some { x with engine := x.engine.pause }
  | .progress cipher batchSectors =>
    let (_, engine, store, device) :=
      EncryptionEngine.progressStep (jvckOffsetStore P) cipher batchSectors x.engine x.store x.device
    some { engine, store, device }
  | .elsewhere device =>
    if device.sectorSize = x.device.sectorSize ∧ device.totalSectors = x.device.totalSectors then
      some { x with device }
    else none

/-- The sectors that the due batch reads and writes back, if there is one. -/
def swept (cipher : VolumeCipher) (batchSectors : UInt64) (x : Sweep) : List Nat :=
  match nextBatch cipher batchSectors x.engine with
  | none => []
  | some b => x.device.touched (x.engine.offsetSector + b.start).toNat (b.count.toNat * x.device.ss % 2 ^ 64)

/-- A raw sector of the data region. -/
def Inside (g : Geometry) (lba : Nat) : Prop :=
  g.offsetSector.toNat ≤ lba ∧ lba < g.offsetSector.toNat + g.dataSectors.toNat

/-- No batch of an engine that `on_attach` sets up leaves the data region, in any run. -/
def SweepsInside (E : Env) (d : Device) : Prop :=
  ∀ {offsetSector encryptedOffset store}, onAttach E d = .ok (offsetSector, encryptedOffset, store) →
    ∀ {ops x}, StepRun.run (step E.primitives) ⟨.new offsetSector encryptedOffset, store, d⟩ ops = some x →
      ∀ cipher batchSectors, ∀ lba ∈ swept cipher batchSectors x, Inside store.geometry lba

/-! ## What the image records -/

/-- The header that Phase A takes: of the last sector if that is CRC-valid, else of sector 0. -/
def foundHeader (P : Primitives) (d : Device) : VckResult JvckHeader :=
  if JvckMetadata.verifyCrc P (blockAt d (d.sectors - 1)).toList = .ok () then
    JvckMetadata.parse P (blockAt d (d.sectors - 1)).toList
  else JvckMetadata.parse P (blockAt d 0).toList

/-- The header was written for this sector size, and every replica that the key unseals has its boundary in the
data region. -/
structure Recorded (P : Primitives) (vmk : Bytes) (d : Device) : Prop where
  sectorSize : ∀ {header}, foundHeader P d = .ok header → header.sectorSize = d.sectorSize
  offset : ∀ {header L}, foundHeader P d = .ok header →
    Layout.Of L d.sectorSize d.totalSectors (JvckMetadataReader.optionsOf header) →
    ∀ {i o state secrets}, i < L.count → d.readFault (L.metaLba i) = false →
      JvckMetadata.decryptPayload P (blockAt d (L.metaLba i)).toList vmk = .ok (o, state, secrets) →
      o.toNat ≤ L.dataCount

section Opened

variable {P : Primitives} {d : Device} {vmk : Bytes} {s : JvckMetadataStore} {L : Layout}

theorem foundHeader_of_openReader {r : JvckMetadataReader} (h : JvckMetadataReader.openReader P d = .ok r) :
    foundHeader P d = .ok r.header := by
  obtain ⟨hs, hn, -⟩ := openReader_inv h
  rw [openReader_eq hs hn] at h
  rw [foundHeader]
  split at h
  · cases h
  · split at h
    · rename_i hv
      rw [if_pos hv]
      exact (openBlock_inv h).1
    · rename_i hv
      rw [if_neg hv]
      split at h
      · cases h
      · split at h
        · exact (openBlock_inv h).1
        · cases h

/-- An opened store is placed as the header that was found says. -/
theorem openStore_on (h : JvckMetadataStore.openStore P d vmk = .ok s) :
    foundHeader P d = .ok s.header ∧ s.options = JvckMetadataReader.optionsOf s.header ∧ ∃ L : Layout,
      L.Of d.sectorSize d.totalSectors (JvckMetadataReader.optionsOf s.header) ∧ On s.toPlacement L d := by
  obtain ⟨r, hA, -, hp, hh⟩ := openStore_reader h
  obtain ⟨-, -, -, L, hL, hr⟩ := openReader_inv hA
  rw [hp, hh]
  refine ⟨foundHeader_of_openReader hA, ?_, L, hL, ?_⟩
  · rw [hr]
    rfl
  · rw [hr]
    exact readerOf_on hL

theorem verifyCrc_of_decryptPayload {block : Bytes} {x : UInt64 × VolumeState × JvckSecrets}
    (h : JvckMetadata.decryptPayload P block vmk = .ok x) : JvckMetadata.verifyCrc P block = .ok () := by
  rw [JvckMetadata.decryptPayload] at h
  cases hv : JvckMetadata.verifyCrc P block with
  | error e =>
    rw [hv] at h
    cases h
  | ok u => rfl

/-- What a replica of the default suite holds. -/
theorem replicaContent_eq_some (hcodec : s.codec = jvckCbcCodec P) (hon : On s.toPlacement L d) {i : Nat}
    (hi : i < L.count) {c : UInt64 × VolumeState} :
    replicaContent P s d i (UInt64.ofNat (L.metaLba i)) = some c ↔
      d.readFault (L.metaLba i) = false ∧ ∃ secrets,
        JvckMetadata.decryptPayload P (blockAt d (L.metaLba i)).toList s.vmk = .ok (c.1, c.2, secrets) := by
  rw [replicaContent, hon.readBlock hi]
  cases hr : d.readFault (L.metaLba i) with
  | true => simp
  | false =>
    simp only [Bool.false_eq_true, if_false, true_and]
    cases hdec : JvckMetadata.decryptPayload P (blockAt d (L.metaLba i)).toList s.vmk with
    | error e =>
      have hu : s.codec.unsealPayload (s.ctx s.header d i (blockAt d (L.metaLba i))) s.vmk = .error e := by
        rw [hcodec]
        change (JvckMetadata.decryptPayload P (blockAt d (L.metaLba i)).toList s.vmk >>= _) = _
        rw [hdec]
        rfl
      cases JvckMetadata.verifyCrc P (blockAt d (L.metaLba i)).toList with
      | error e => simp
      | ok u => simp [hu, Except.toOption]
    | ok x =>
      have hu : s.codec.unsealPayload (s.ctx s.header d i (blockAt d (L.metaLba i))) s.vmk =
          .ok ⟨x.1, x.2.1, x.2.2⟩ := by
        rw [hcodec]
        change (JvckMetadata.decryptPayload P (blockAt d (L.metaLba i)).toList s.vmk >>= _) = _
        rw [hdec]
        rfl
      rw [verifyCrc_of_decryptPayload hdec]
      obtain ⟨o, state, secrets⟩ := x
      obtain ⟨o', state'⟩ := c
      simp [hu, Except.toOption]

/-- The recovered boundary is in the data region exactly when the boundary of every replica is. -/
theorem offset_le_iff (h : JvckMetadataStore.openStore P d vmk = .ok s) (hon : On s.toPlacement L d) :
    s.offset ≤ s.geometry.dataSectors ↔
      ∀ {i o state secrets}, i < L.count → d.readFault (L.metaLba i) = false →
        JvckMetadata.decryptPayload P (blockAt d (L.metaLba i)).toList vmk = .ok (o, state, secrets) →
        o.toNat ≤ L.dataCount := by
  obtain ⟨hcodec, rfl, -, hmem, hall⟩ := openStore_inv h
  rw [UInt64.le_iff_toNat_le, toNat_dataSectors hon]
  rw [zipIdx_lbas hon, List.filterMap_map] at hmem hall
  constructor
  · intro hle i o state secrets hi hr hdec
    have hc := (replicaContent_eq_some hcodec hon hi (c := (o, state))).mpr ⟨hr, secrets, hdec⟩
    have hin := hall o (List.mem_filterMap.mpr ⟨i, List.mem_range.mpr hi, by simp [hc]⟩)
    exact Nat.le_trans (UInt64.le_iff_toNat_le.mp hin) hle
  · intro hrec
    obtain ⟨i, hi, hoff⟩ := List.mem_filterMap.mp hmem
    obtain ⟨c, hc, ho⟩ := Option.map_eq_some_iff.mp hoff
    obtain ⟨hr, secrets, hdec⟩ := (replicaContent_eq_some hcodec hon (List.mem_range.mp hi)).mp hc
    rw [← ho]
    exact hrec (List.mem_range.mp hi) hr hdec

end Opened

/-! ## Batches of a bounded engine -/

/-- The engine sweeps the data region of the store, and its boundary has not left it. -/
structure Bounded (p : Placement) (L : Layout) (x : Sweep) : Prop where
  on : On p L x.device
  placement : x.store.toPlacement = p
  offsetSector : x.engine.offsetSector = p.geometry.offsetSector
  totalSectors : x.engine.encryptedOffset.totalSectors = p.geometry.dataSectors
  boundary : x.engine.encryptedOffset.sector.toNat ≤ L.dataCount

section Runs

variable {P : Primitives} {p : Placement} {L : Layout} {x x' : Sweep} {e : EncryptionEngine} {st : JvckMetadataStore}
  {d : Device}

theorem store_placement (s : JvckMetadataStore) (hon : On s.toPlacement L d) (o : EncryptedOffset) :
    ((jvckOffsetStore P).store s d o).2.1.toPlacement = s.toPlacement ∧
      On s.toPlacement L ((jvckOffsetStore P).store s d o).2.2 :=
  ⟨rfl, ((jvckOffsetStore_confined P L).store o hon).2⟩

theorem storeState_placement (s : JvckMetadataStore) (hon : On s.toPlacement L d) (v : VolumeState) :
    ((jvckOffsetStore P).storeState s d v).2.1.toPlacement = s.toPlacement ∧
      On s.toPlacement L ((jvckOffsetStore P).storeState s d v).2.2 :=
  ⟨rfl, ((jvckOffsetStore_confined P L).storeState v hon).2⟩

theorem on_writeSectors (h : On p L d) (lba : UInt64) (buf : Bytes) : On p L (writeSectors d lba buf).2 := by
  apply h.frame (S := fun _ => True)
  rcases writeSectors_cases d lba buf with hw | hw
  · rw [hw]
    exact ⟨rfl, rfl, rfl, rfl, rfl, fun _ hS => absurd trivial hS⟩
  · rw [hw]
    exact .refl _ d

/-- A batch keeps the placement, and leaves the boundary where it was or takes it to its own. -/
theorem batchStep_bounded (hon : On st.toPlacement L d) (b : Batch) :
    ∃ r e' st' d', EncryptionEngine.batchStep (jvckOffsetStore P) b.area b.finished b.start b.count b.boundary e st d =
        (r, e', st', d') ∧ On st.toPlacement L d' ∧ st'.toPlacement = st.toPlacement ∧ suiteOf st' = suiteOf st ∧
      e'.offsetSector = e.offsetSector ∧
      e'.encryptedOffset.totalSectors = e.encryptedOffset.totalSectors ∧
      (e'.encryptedOffset.sector = e.encryptedOffset.sector ∨ e'.encryptedOffset.sector = b.boundary) := by
  unfold EncryptionEngine.batchStep
  simp only
  cases readSectors d (e.offsetSector + b.start) (b.count.toNat * d.sectorSize.toNat % 2 ^ 64) with
  | error err => exact ⟨_, _, _, _, rfl, hon, rfl, rfl, rfl, rfl, .inl rfl⟩
  | ok buf =>
    simp only
    have hon' := on_writeSectors hon (e.offsetSector + b.start) (b.area buf d.sectorSize.toNat b.start)
    generalize writeSectors d (e.offsetSector + b.start) (b.area buf d.sectorSize.toNat b.start) = w at hon' ⊢
    obtain ⟨r, d'⟩ := w
    cases r with
    | error err => exact ⟨_, _, _, _, rfl, hon', rfl, rfl, rfl, rfl, .inl rfl⟩
    | ok u =>
      obtain ⟨r, state, hp, -⟩ := persist_cases (jvckOffsetStore P) b.finished (e.setBoundary b.boundary) st d'
      obtain ⟨hpl, hon''⟩ := store_placement (P := P) st hon' (e.setBoundary b.boundary).encryptedOffset
      have hflush (s : JvckMetadataStore) (d : Device) : ((jvckOffsetStore P).flush s d).2 = (s, d) := rfl
      rw [hflush, Prod.mk.eta, ite_self] at hp
      exact ⟨_, _, _, _, hp, hon'', hpl, rfl, rfl, rfl, .inr rfl⟩

theorem Bounded.withEngine (h : Bounded p L x) {e' : EncryptionEngine} (ho : e'.offsetSector = x.engine.offsetSector)
    (heo : e'.encryptedOffset = x.engine.encryptedOffset) : Bounded p L { x with engine := e' } :=
  ⟨h.on, h.placement, ho.trans h.offsetSector, by rw [heo]; exact h.totalSectors, by rw [heo]; exact h.boundary⟩

theorem Bounded.le (h : Bounded p L x) :
    x.engine.encryptedOffset.sector.toNat ≤ x.engine.encryptedOffset.totalSectors.toNat := by
  rw [h.totalSectors, toNat_dataSectors h.on]
  exact h.boundary

theorem Bounded.progress (h : Bounded p L x) {cipher : VolumeCipher} {batchSectors : UInt64} {r : VckResult Bool}
    {e' : EncryptionEngine} {st' : JvckMetadataStore} {d' : Device}
    (hs : EncryptionEngine.progressStep (jvckOffsetStore P) cipher batchSectors x.engine x.store x.device =
      (r, e', st', d')) : Bounded p L ⟨e', st', d'⟩ := by
  cases hn : nextBatch cipher batchSectors x.engine with
  | none =>
    obtain ⟨state, hstep⟩ := progressStep_of_none (jvckOffsetStore P) x.store x.device hn
    rw [hstep] at hs
    cases hs
    exact h.withEngine rfl rfl
  | some b =>
    obtain ⟨hfit, -⟩ := nextBatch_cases h.le hn
    have hon : On x.store.toPlacement L x.device := by rw [h.placement]; exact h.on
    obtain ⟨r₁, e₁, st₁, d₁, hb, hon₁, hpl, -, ho, ht, hsector⟩ := batchStep_bounded (P := P) (e := x.engine) hon b
    rw [progressStep_of_some (jvckOffsetStore P) x.store x.device hn, hb] at hs
    cases hs
    have hbound := hfit.bounded
    rw [h.totalSectors, toNat_dataSectors h.on] at hbound
    refine ⟨by rw [← h.placement]; exact hon₁, hpl.trans h.placement, ho.trans h.offsetSector,
      ht.trans h.totalSectors, ?_⟩
    rcases hsector with hsec | hsec
    · rw [hsec]
      exact h.boundary
    · rw [hsec]
      exact hbound

theorem step_bounded {op : EngineOp} (h : Bounded p L x) (hs : step P x op = some x') : Bounded p L x' := by
  have hon : On x.store.toPlacement L x.device := by rw [h.placement]; exact h.on
  have hstart (v : VolumeState) : Bounded p L ⟨{ x.engine with state := x.engine.startState v },
      ((jvckOffsetStore P).storeState x.store x.device v).2.1,
      ((jvckOffsetStore P).storeState x.store x.device v).2.2⟩ := by
    obtain ⟨hpl, hon'⟩ := storeState_placement (P := P) x.store hon v
    exact ⟨by rw [← h.placement]; exact hon', hpl.trans h.placement, h.offsetSector, h.totalSectors, h.boundary⟩
  cases op with
  | startEncrypt =>
    obtain rfl := Option.some.inj hs
    exact hstart .encrypt
  | startDecrypt =>
    obtain rfl := Option.some.inj hs
    exact hstart .decrypt
  | resume =>
    obtain rfl := Option.some.inj hs
    exact h.withEngine rfl rfl
  | pause =>
    obtain rfl := Option.some.inj hs
    apply h.withEngine
    · rw [EncryptionEngine.pause]
      split <;> rfl
    · rw [EncryptionEngine.pause]
      split <;> rfl
  | progress cipher batchSectors =>
    obtain rfl := Option.some.inj hs
    exact h.progress rfl
  | elsewhere device =>
    rw [step] at hs
    split at hs
    · rename_i hsize
      obtain rfl := Option.some.inj hs
      refine ⟨⟨?_, ?_, ?_⟩, h.placement, h.offsetSector, h.totalSectors, h.boundary⟩
      · rw [hsize.1, hsize.2]
        exact h.on.layout
      · rw [hsize.1]
        exact h.on.geometry
      · rw [hsize.2]
        exact h.on.volumeSectors
    · cases hs

theorem run_bounded (h : Bounded p L x) {ops : List EngineOp} (hrun : StepRun.run (step P) x ops = some x') :
    Bounded p L x' :=
  StepRun.run_simulates (R := fun y (_ : Unit) => Bounded p L y) (fun u _ => u) step_bounded (t := ()) h hrun

/-- The batch of a bounded engine lies in the data region. -/
theorem Bounded.swept_inside (h : Bounded p L x) {cipher : VolumeCipher} {batchSectors : UInt64} {lba : Nat}
    (hl : lba ∈ swept cipher batchSectors x) : Inside p.geometry lba := by
  rw [swept] at hl
  cases hn : nextBatch cipher batchSectors x.engine with
  | none =>
    rw [hn] at hl
    cases hl
  | some b =>
    rw [hn] at hl
    obtain ⟨hfit, -⟩ := nextBatch_cases h.le hn
    have hin := hfit.within
    have hoff := toNat_offsetSector h.on
    have hdata := toNat_dataSectors h.on
    have hend := L.dataEnd_eq
    have hfoot := L.footerEnd_eq
    have htot := h.on.total
    have hsec : x.device.sectors < 2 ^ 64 := x.device.totalSectors.toNat_lt
    have haddr : x.device.sectors * x.device.ss < 2 ^ 64 := x.device.addressable
    have hss := h.on.ss
    rw [h.totalSectors, hdata] at hin
    have habs : (x.engine.offsetSector + b.start).toNat = L.dataStart + b.start.toNat := by
      rw [h.offsetSector, UInt64.toNat_add, hoff, Nat.mod_eq_of_lt (by omega)]
    have hlen : b.count.toNat * x.device.ss % 2 ^ 64 = b.count.toNat * x.device.ss := by
      apply Nat.mod_eq_of_lt
      have hle : b.count.toNat * x.device.ss ≤ x.device.sectors * x.device.ss := Nat.mul_le_mul_right _ (by omega)
      exact Nat.lt_of_le_of_lt hle haddr
    simp only [habs, hlen, touched_mul x.device (by omega), List.mem_map, List.mem_range] at hl
    obtain ⟨k, hk, rfl⟩ := hl
    rw [Inside, hoff, hdata]
    omega

end Runs

/-! ## Opened volumes -/

section Consistency

variable {E : Env} {d : Device} {s : JvckMetadataStore}

theorem onAttach_inv {offsetSector : UInt64} {encryptedOffset : EncryptedOffset} {store : JvckMetadataStore}
    (hopen : JvckMetadataStore.openStore E.primitives d E.vmk = .ok s)
    (h : onAttach E d = .ok (offsetSector, encryptedOffset, store)) :
    store = s ∧ offsetSector = s.geometry.offsetSector ∧ encryptedOffset = ⟨s.offset, s.geometry.dataSectors⟩ := by
  obtain ⟨hstore, rfl, sector, hload, rfl⟩ := onAttach_ok_iff.mp h
  obtain rfl := Except.ok.inj (hstore.symm.trans hopen)
  obtain ⟨r, -, hinto, -⟩ := openStore_reader hopen
  obtain ⟨codec, u, -, -, -, -, -, -, -, hoff⟩ := intoStore_inv hinto
  rw [hload] at hoff
  refine ⟨rfl, rfl, ?_⟩
  rw [hoff]
  rfl

theorem sweepsInside_of_offset (hopen : JvckMetadataStore.openStore E.primitives d E.vmk = .ok s)
    (hle : s.offset ≤ s.geometry.dataSectors) : SweepsInside E d := by
  obtain ⟨-, -, L, -, hon⟩ := openStore_on hopen
  intro offsetSector encryptedOffset store hatt ops x hrun cipher batchSectors lba hl
  obtain ⟨rfl, rfl, rfl⟩ := onAttach_inv hopen hatt
  have hstart : Bounded store.toPlacement L
      ⟨.new store.geometry.offsetSector ⟨store.offset, store.geometry.dataSectors⟩, store, d⟩ := by
    refine ⟨hon, rfl, rfl, rfl, ?_⟩
    rw [UInt64.le_iff_toNat_le, toNat_dataSectors hon] at hle
    exact hle
  exact (run_bounded hstart hrun).swept_inside hl

/-- A decrypting batch of one sector takes the sector below the boundary. -/
theorem swept_below_boundary {p : Placement} {L : Layout} {x : Sweep} (cipher : VolumeCipher) (hon : On p L x.device)
    (hstate : x.engine.state = .decrypting) (hpos : 0 < x.engine.encryptedOffset.sector.toNat) :
    (x.engine.offsetSector.toNat + (x.engine.encryptedOffset.sector.toNat - 1)) % 2 ^ 64 ∈ swept cipher 1 x := by
  obtain ⟨⟨offset, ⟨sector, total⟩, state⟩, st, d⟩ := x
  obtain rfl : state = .decrypting := hstate
  simp only at hpos hon ⊢
  have hne : sector ≠ 0 := by
    rintro rfl
    cases hpos
  obtain ⟨hcount, hsub⟩ := toNat_decryptBatch sector 1
  have hone : (min sector (max 1 1)).toNat = 1 := by
    rw [hcount]
    change min sector.toNat (max 1 1) = 1
    omega
  have hss := hon.ss
  have hlt : d.ss < 2 ^ 32 := d.sectorSize.toNat_lt
  have hlen : 1 * d.ss % 2 ^ 64 = 1 * d.ss := Nat.mod_eq_of_lt (by omega)
  simp only [swept, nextBatch, if_neg hne, hone, hlen, touched_mul d (show 0 < d.ss by omega), UInt64.toNat_add, hsub]
  simp

/-- A sweep down from a boundary outside the data region starts outside. -/
theorem not_sweepsInside_of_offset (hopen : JvckMetadataStore.openStore E.primitives d E.vmk = .ok s)
    (hload : s.loadOffset E.primitives d = .ok s.offset) (hgt : ¬ s.offset ≤ s.geometry.dataSectors) :
    ¬ SweepsInside E d := by
  obtain ⟨-, -, L, -, hon⟩ := openStore_on hopen
  obtain ⟨-, hon'⟩ := storeState_placement (P := E.primitives) s hon .decrypt
  have h₁ := s.offset.toNat_lt
  have h₂ := s.geometry.offsetSector.toNat_lt
  rw [UInt64.le_iff_toNat_le] at hgt
  have hpos : 0 < s.offset.toNat := by omega
  have hatt : onAttach E d = .ok (s.geometry.offsetSector, ⟨s.offset, s.geometry.dataSectors⟩, s) :=
    onAttach_ok_iff.mpr ⟨hopen, rfl, _, hload, rfl⟩
  have hrun : StepRun.run (step E.primitives)
      ⟨.new s.geometry.offsetSector ⟨s.offset, s.geometry.dataSectors⟩, s, d⟩ [.startDecrypt] =
        some ⟨⟨s.geometry.offsetSector, ⟨s.offset, s.geometry.dataSectors⟩, .decrypting⟩,
          ((jvckOffsetStore E.primitives).storeState s d .decrypt).2.1,
          ((jvckOffsetStore E.primitives).storeState s d .decrypt).2.2⟩ := by
    have hst : (EncryptionEngine.new s.geometry.offsetSector ⟨s.offset, s.geometry.dataSectors⟩).startState .decrypt =
        .decrypting := if_pos (show s.offset > 0 from UInt64.lt_iff_toNat_lt.mpr hpos)
    simp only [StepRun.run, step, EncryptionEngine.startDecrypt, Option.bind_some, hst]
    rfl
  intro h
  have hin := h hatt hrun flipCipher 1 _ (swept_below_boundary flipCipher hon' rfl hpos)
  rw [Inside] at hin
  simp only at hin
  omega

/-- An opened volume fits its device and is swept inside its data region exactly when the image was recorded for
that device. -/
theorem opened_consistent_iff (hopen : JvckMetadataStore.openStore E.primitives d E.vmk = .ok s) :
    (s.offset ≤ s.geometry.dataSectors ∧ s.header.sectorSize = d.sectorSize ∧ SweepsInside E d) ↔
      Recorded E.primitives E.vmk d := by
  obtain ⟨hfound, -, L, hL, hon⟩ := openStore_on hopen
  constructor
  · rintro ⟨hle, hsize, -⟩
    constructor
    · intro header hh
      obtain rfl := Except.ok.inj (hfound.symm.trans hh)
      exact hsize
    · intro header L' hh hL'
      obtain rfl := Except.ok.inj (hfound.symm.trans hh)
      obtain rfl := hL.unique hL'
      exact (offset_le_iff hopen hon).mp hle
  · intro h
    have hle : s.offset ≤ s.geometry.dataSectors := (offset_le_iff hopen hon).mpr (h.offset hfound hL)
    exact ⟨hle, h.sectorSize hfound, sweepsInside_of_offset hopen hle⟩

theorem sample_opens (offset : UInt64) (state : VolumeState) :
    JvckMetadataStore.openStore headerEnv.primitives (JvckRecovery.sampleDevice offset state) headerEnv.vmk =
        .ok (JvckRecovery.sampleStore offset state) ∧
      (JvckRecovery.sampleStore offset state).loadOffset headerEnv.primitives (JvckRecovery.sampleDevice offset state) =
        .ok offset := by
  obtain ⟨hsync, hd⟩ := JvckRecovery.sampleDevice_synced offset state
  have hc : LawfulCodec JvckMetadata.standard (JvckRecovery.sampleStore offset state).codec := jvckCbcCodec_lawful _
  have hread : ∀ i, i < twoFooters.count →
      (JvckRecovery.sampleDevice offset state).readFault (twoFooters.metaLba i) = false := fun i _ => hd.readFault _
  obtain ⟨-, hopen⟩ := hsync.reopen hc (by decide) hread
  refine ⟨?_, hsync.loadOffset hc (by decide) hread⟩
  have hstate : (VolumeState.fromU16 state.asU16).asU16 = state.asU16 := by rw [VolumeState.fromU16_asU16]
  refine hopen.trans ?_
  change Except.ok { JvckRecovery.sampleStore offset state with state := (VolumeState.fromU16 state.asU16).asU16 } = _
  rw [hstate]
  rfl

/-- Boundary 5 on a volume of 512 data sectors. -/
theorem recorded_sample_consistent :
    ∃ s, JvckMetadataStore.openStore headerEnv.primitives (JvckRecovery.sampleDevice 5 .encrypt) headerEnv.vmk = .ok s ∧
      s.offset ≤ s.geometry.dataSectors ∧ s.header.sectorSize = (JvckRecovery.sampleDevice 5 .encrypt).sectorSize ∧
      SweepsInside headerEnv (JvckRecovery.sampleDevice 5 .encrypt) := by
  obtain ⟨hopen, -⟩ := sample_opens 5 .encrypt
  obtain ⟨hsync, -⟩ := JvckRecovery.sampleDevice_synced 5 .encrypt
  have hsize : (JvckRecovery.sampleStore 5 .encrypt).header.sectorSize =
      (JvckRecovery.sampleDevice 5 .encrypt).sectorSize := hsync.on.sectorSize
  obtain ⟨hfound, -⟩ := openStore_on hopen
  have hrec : Recorded headerEnv.primitives headerEnv.vmk (JvckRecovery.sampleDevice 5 .encrypt) := by
    constructor
    · intro header hh
      obtain rfl := Except.ok.inj (hfound.symm.trans hh)
      exact hsize
    · intro header L hh hL
      obtain rfl := Except.ok.inj (hfound.symm.trans hh)
      obtain rfl := hL.unique hsync.layoutOf
      apply (offset_le_iff hopen hsync.on).mp
      rw [UInt64.le_iff_toNat_le, toNat_dataSectors hsync.on]
      decide
  exact ⟨_, hopen, (opened_consistent_iff hopen).mpr hrec⟩

/-- A boundary of 600 on a volume of 512 data sectors opens, and the sweep down from it starts in the first footer. -/
theorem boundary_in_footer :
    ∃ s, JvckMetadataStore.openStore headerEnv.primitives (JvckRecovery.sampleDevice 600 .decrypt) headerEnv.vmk =
        .ok s ∧
      ¬ s.offset ≤ s.geometry.dataSectors ∧ ¬ SweepsInside headerEnv (JvckRecovery.sampleDevice 600 .decrypt) := by
  obtain ⟨hopen, hload⟩ := sample_opens 600 .decrypt
  obtain ⟨hsync, -⟩ := JvckRecovery.sampleDevice_synced 600 .decrypt
  have hgt : ¬ (JvckRecovery.sampleStore 600 .decrypt).offset ≤
      (JvckRecovery.sampleStore 600 .decrypt).geometry.dataSectors := by
    rw [UInt64.le_iff_toNat_le, toNat_dataSectors hsync.on]
    decide
  exact ⟨_, hopen, hgt, not_sweepsInside_of_offset hopen hload hgt⟩

end Consistency

end OpenConsistency
