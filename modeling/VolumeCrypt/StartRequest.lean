import VolumeCrypt.Dispatch
import VolumeCrypt.OpenConsistency

/-!
# Whether a START request survives a reboot

`start_encrypt` and `start_decrypt` drop the answer of `store_state`, so the handlers
report success whether or not a replica was written. The store keeps the new direction in
memory and seals it with every later batch; a reboot before that takes the direction from
the first replica that can be read.
-/
namespace StartRequest

open ByteString VckTypes SectorIo CipherTraits JvckLayout JvckStore JvckReplicas JvckRuns SweepEngine Transparency
  OpenedStore OpenConsistency DriverState Dispatch
open JvckMetadata (Primitives JvckHeader JvckSecrets)

/-! ## Replica writes that fail -/

/-- `write_all_replicas` gets as far as replica `i`: there is a salt, and no write up to `i` fails. -/
def Reached (L : Layout) (d : Device) (i : Nat) : Prop :=
  (∃ salt, d.random d.draws = .ok salt) ∧ ∀ j, j ≤ i → d.writeFault (L.metaLba j) = false

section Writes

variable {P : Primitives} {L : Layout} {d : Device} {s : JvckMetadataStore}

theorem writeBlock_cases (hs : 512 ≤ d.ss) {lba : UInt64} (hl : lba.toNat < d.sectors) (block : Fixed 512) :
    (d.writeFault lba.toNat = true ∧
        writeBlock d d.sectorSize lba block = (.error (.io "write_sectors failed"), d)) ∨
      (d.writeFault lba.toNat = false ∧ (writeBlock d d.sectorSize lba block).1 = .ok ()) := by
  have hlen : (copyAt (List.replicate d.sectorSize.toNat 0) 0 block.toList).length = 1 * d.ss := by
    rw [Nat.one_mul, length_copyAt, List.length_replicate]
    · rfl
    · rw [List.length_replicate, List.Vector.toList_length]
      exact hs
  rw [writeBlock]
  cases hf : d.writeFault lba.toNat with
  | true =>
    refine .inl ⟨rfl, writeSectors_of_not_reachable (by omega) hlen ?_⟩
    intro h
    have hfalse := h.2 0 (by omega)
    rw [Nat.add_zero, hf] at hfalse
    cases hfalse
  | false =>
    refine .inr ⟨rfl, ?_⟩
    rw [writeSectors_of_reachable (by omega) hlen]
    refine ⟨by omega, ?_⟩
    intro i hi
    obtain rfl : i = 0 := by omega
    exact hf

/-- Behind a sector that can be written, the faults that count are those of the rest. -/
theorem unfaulted_cons {fault : Nat → Bool} {l : UInt64} (hl : fault l.toNat = false) (rest : List UInt64) (i : Nat) :
    (∀ j ≤ i + 1, ∀ l', (l :: rest)[j]? = some l' → fault l'.toNat = false) ↔
      ∀ j ≤ i, ∀ l', rest[j]? = some l' → fault l'.toNat = false := by
  constructor
  · intro h j hj l' hl'
    exact h (j + 1) (by omega) l' hl'
  · intro h j hj l' hl'
    cases j with
    | zero =>
      obtain rfl := Option.some.inj hl'
      exact hl
    | succ j => exact h j (by omega) l' hl'

/-- The write loop stops at the first faulty sector; the sectors before it hold the block. -/
theorem writeBlocks_reached (hs : 512 ≤ d.ss) (block : Fixed 512) {lbas : List UInt64}
    (hl : ∀ lba ∈ lbas, lba.toNat < d.sectors) (hdistinct : (lbas.map UInt64.toNat).Nodup) {i : Nat} {lba : UInt64}
    (hi : lbas[i]? = some lba) :
    ((∀ j ≤ i, ∀ l, lbas[j]? = some l → d.writeFault l.toNat = false) →
        blockAt (JvckMetadataStore.writeBlocks d.sectorSize block d lbas).2 lba.toNat = block) ∧
      (¬ (∀ j ≤ i, ∀ l, lbas[j]? = some l → d.writeFault l.toNat = false) →
        blockAt (JvckMetadataStore.writeBlocks d.sectorSize block d lbas).2 lba.toNat = blockAt d lba.toNat) := by
  induction lbas generalizing d i with
  | nil => cases hi
  | cons l rest ih =>
    rw [List.map_cons, List.nodup_cons] at hdistinct
    obtain ⟨hframe, hblock⟩ := writeBlock_spec hs l block
    have hcases := writeBlock_cases hs (hl l (by simp)) block
    rw [JvckMetadataStore.writeBlocks]
    generalize hw : writeBlock d d.sectorSize l block = w at hframe hblock hcases
    obtain ⟨r, d₁⟩ := w
    rcases hcases with ⟨hfault, heq⟩ | ⟨hfault, hok⟩
    · obtain ⟨rfl, rfl⟩ := Prod.mk.inj heq
      refine ⟨fun hall => ?_, fun _ => rfl⟩
      have hfalse := hall 0 (Nat.zero_le i) l rfl
      rw [hfault] at hfalse
      cases hfalse
    · obtain rfl : r = .ok () := hok
      simp only at hframe hblock ⊢
      have hs₁ : 512 ≤ d₁.ss := by rw [hframe.ss]; exact hs
      have hl₁ : ∀ lba ∈ rest, lba.toNat < d₁.sectors := by
        intro lba hmem
        rw [hframe.sectors]
        exact hl lba (by simp [hmem])
      cases i with
      | zero =>
        obtain rfl := Option.some.inj hi
        obtain ⟨hrest, -⟩ := writeBlocks_spec hs₁ block rest
        have hself : ¬ ∃ lba ∈ rest, l.toNat = lba.toNat := by
          rintro ⟨lba, hmem, he⟩
          exact hdistinct.1 (List.mem_map.mpr ⟨lba, hmem, he.symm⟩)
        rw [hframe.sectorSize] at hrest
        refine ⟨fun _ => ?_, fun hno => absurd ?_ hno⟩
        · rw [blockAt_frame hrest hself]
          exact hblock trivial
        · intro j hj l' hl'
          obtain rfl : j = 0 := by omega
          obtain rfl := Option.some.inj hl'
          exact hfault
      | succ i =>
        have hi' : rest[i]? = some lba := hi
        have hne : lba.toNat ≠ l.toNat := by
          intro he
          exact hdistinct.1 (List.mem_map.mpr ⟨lba, List.mem_of_getElem? hi', he⟩)
        have hih := ih hs₁ hl₁ hdistinct.2 hi'
        rw [hframe.sectorSize, hframe.writeFault, blockAt_frame hframe hne] at hih
        rw [unfaulted_cons hfault]
        exact hih

theorem toNat_lbas (hon : On s.toPlacement L d) :
    s.lbas.map UInt64.toNat = (List.range L.count).map L.metaLba := by
  rw [hon.lbas, List.map_map]
  apply List.map_congr_left
  intro i hi
  exact hon.layout.toNat_metaLba (List.mem_range.mp hi)

/-- A re-seal reaches a prefix of the replicas and leaves the others alone. -/
theorem writeAllReplicas_reached (hon : On s.toPlacement L d) (hcodec : s.codec = jvckCbcCodec P) {i : Nat}
    (hi : i < L.count) :
    (Reached L d i → ∃ salt, s.sealBlock salt = .ok (blockAt (s.writeAllReplicas d).2 (L.metaLba i))) ∧
      (¬ Reached L d i → blockAt (s.writeAllReplicas d).2 (L.metaLba i) = blockAt d (L.metaLba i)) := by
  have hfill := fillRandom_frame d
  have hsame : blockAt (fillRandom d).2 (L.metaLba i) = blockAt d (L.metaLba i) := blockAt_frame hfill id
  have h₀ := hon.frame hfill
  rw [JvckMetadataStore.writeAllReplicas, JvckMetadataStore.writeReplicas, List.take_length]
  rw [fillRandom] at hfill hsame h₀ ⊢
  cases hr : d.random d.draws with
  | error e =>
    refine ⟨?_, fun _ => hsame⟩
    rintro ⟨⟨salt, hsalt⟩, -⟩
    rw [hr] at hsalt
    cases hsalt
  | ok salt =>
    obtain ⟨block, hblock⟩ : ∃ block, s.sealBlock salt = .ok block := by
      rw [JvckMetadataStore.sealBlock, hcodec]
      exact ⟨_, rfl⟩
    have hget : s.lbas[i]? = some (UInt64.ofNat (L.metaLba i)) := by
      rw [hon.lbas, List.getElem?_map, List.getElem?_range hi]
      rfl
    have hin : ∀ lba ∈ s.lbas, lba.toNat < d.sectors := fun _ hmem => hon.lt_of_mem_lbas hmem
    have hnodup : (s.lbas.map UInt64.toNat).Nodup := by
      rw [toNat_lbas hon]
      exact List.Nodup.map (fun _ _ he => L.metaLba_injective he) List.nodup_range
    obtain ⟨hyes, hno⟩ := writeBlocks_reached (d := { d with draws := d.draws + 1 }) h₀.ss block hin hnodup hget
    have hfaults : (∀ j ≤ i, ∀ l, s.lbas[j]? = some l → d.writeFault l.toNat = false) ↔ Reached L d i := by
      constructor
      · intro h
        refine ⟨⟨salt, hr⟩, ?_⟩
        intro j hj
        have hjc : j < L.count := by omega
        have hf := h j hj (UInt64.ofNat (L.metaLba j)) (by
          rw [hon.lbas, List.getElem?_map, List.getElem?_range hjc]
          rfl)
        rwa [hon.layout.toNat_metaLba hjc] at hf
      · rintro ⟨-, h⟩ j hj l hl
        have hjc : j < L.count := by omega
        rw [hon.lbas, List.getElem?_map, List.getElem?_range hjc] at hl
        obtain rfl := Option.some.inj hl
        rw [hon.layout.toNat_metaLba hjc]
        exact h j hj
    simp only [hblock, h₀.sectorSize]
    simp only [hon.layout.toNat_metaLba hi] at hyes hno
    refine ⟨fun h => ⟨salt, ?_⟩, fun h => ?_⟩
    · rw [hyes (hfaults.mpr h)]
      exact hblock
    · rw [hno (fun hall => h (hfaults.mp hall))]
      exact hsame

end Writes

/-! ## The direction that a reboot finds -/

/-- The state of the first replica that can be read and unsealed. -/
def persistedState (P : Primitives) (s : JvckMetadataStore) (d : Device) : Option VolumeState :=
  (s.lbas.zipIdx 0).findSome? fun x => (replicaContent P s d x.2 x.1).map Prod.snd

section Persisted

variable {P : Primitives} {L : Layout} {d d' : Device} {s s' st : JvckMetadataStore}

theorem findSome_range {α : Type} {f : Nat → Option α} {n g : Nat} {a : α} (hg : g < n) (ha : f g = some a)
    (hnone : ∀ j, j < g → f j = none) : (List.range n).findSome? f = some a := by
  obtain ⟨m, rfl⟩ : ∃ m, n = g + (m + 1) := ⟨n - g - 1, by omega⟩
  have hhead : (List.range g).findSome? f = none := by
    rw [List.findSome?_eq_none_iff]
    intro j hj
    exact hnone j (List.mem_range.mp hj)
  rw [List.range_add, List.findSome?_append, hhead, Option.none_or, List.range_succ_eq_map, List.map_cons,
    List.findSome?_cons, Nat.add_zero, ha]

theorem persistedState_eq (hon : On s.toPlacement L d) :
    persistedState P s d = (List.range L.count).findSome? fun i =>
      (replicaContent P s d i (UInt64.ofNat (L.metaLba i))).map Prod.snd := by
  rw [persistedState, zipIdx_lbas hon, List.findSome?_map]
  rfl

/-- The content of a replica depends on its block, on whether it can be read, and on the key. -/
theorem replicaContent_congr (hcodec : s.codec = jvckCbcCodec P) (hcodec' : s'.codec = jvckCbcCodec P)
    (hvmk : s'.vmk = s.vmk) (hon : On s.toPlacement L d) (hon' : On s'.toPlacement L d') {i : Nat} (hi : i < L.count)
    (hread : d'.readFault (L.metaLba i) = d.readFault (L.metaLba i))
    (hblock : blockAt d' (L.metaLba i) = blockAt d (L.metaLba i)) :
    replicaContent P s' d' i (UInt64.ofNat (L.metaLba i)) = replicaContent P s d i (UInt64.ofNat (L.metaLba i)) := by
  apply Option.ext
  intro c
  rw [replicaContent_eq_some hcodec' hon' hi, replicaContent_eq_some hcodec hon hi, hread, hblock, hvmk]

theorem replicaContent_unreadable (hon : On s.toPlacement L d) {i : Nat} (hi : i < L.count)
    (hread : d.readFault (L.metaLba i) = true) : replicaContent P s d i (UInt64.ofNat (L.metaLba i)) = none := by
  rw [replicaContent, hon.readBlock hi, hread, if_pos rfl]

/-- A sealed replica shows what it was sealed with. -/
theorem replicaContent_sealed (hcodec : s.codec = jvckCbcCodec P) (hon : On s.toPlacement L d) {i : Nat}
    (hi : i < L.count) (hread : d.readFault (L.metaLba i) = false) {salt : Fixed 16}
    (hseal : s.sealBlock salt = .ok (blockAt d (L.metaLba i))) :
    replicaContent P s d i (UInt64.ofNat (L.metaLba i)) = some (s.offset, VolumeState.fromU16 s.state) := by
  have hc : LawfulCodec P s.codec := by
    rw [hcodec]
    exact jvckCbcCodec_lawful P
  have hcrc := JvckMetadata.verifyCrc_of_parse (hc.parse hseal)
  have hu := hc.unsealed hseal (s.ctx s.header d i (blockAt d (L.metaLba i))) rfl rfl
  rw [replicaContent, hon.readBlock hi, hread, if_neg (by simp)]
  simp only [hcrc, hu]
  rfl

/-- A re-seal with direction `v` that reaches a readable replica makes `v` the persisted state; one that does not
changes nothing. -/
theorem persistedState_resealed (hon : On s.toPlacement L d) (hcodec : s.codec = jvckCbcCodec P) {v : VolumeState}
    (hv : VolumeState.fromU16 s.state = v) :
    ((∃ g, g < L.count ∧ d.readFault (L.metaLba g) = false ∧ Reached L d g) →
        persistedState P s (s.writeAllReplicas d).2 = some v) ∧
      ((¬ ∃ g, g < L.count ∧ d.readFault (L.metaLba g) = false ∧ Reached L d g) →
        persistedState P s (s.writeAllReplicas d).2 = persistedState P s d) := by
  classical
  have hframe : Frame L.IsMeta d (s.writeAllReplicas d).2 :=
    (writeAllReplicas_spec (r := (s.writeAllReplicas d).1) hon rfl).1
  have hon' := hon.frame hframe
  have hread := hframe.readFault
  generalize hd' : (s.writeAllReplicas d).2 = d' at hframe hon' hread
  constructor
  · intro hex
    have hfirst := Nat.find_spec hex
    have hbefore : ∀ j, j < Nat.find hex → d.readFault (L.metaLba j) = true := by
      intro j hj
      by_contra hno
      have hjr : d.readFault (L.metaLba j) = false := by simpa using hno
      exact Nat.find_min hex hj ⟨by omega, hjr, hfirst.2.2.1, fun k hk => hfirst.2.2.2 k (by omega)⟩
    obtain ⟨hg, hgr, hreach⟩ := hfirst
    obtain ⟨salt, hseal⟩ := (writeAllReplicas_reached hon hcodec hg).1 hreach
    rw [hd'] at hseal
    rw [persistedState_eq hon']
    refine findSome_range hg ?_ ?_
    · rw [replicaContent_sealed hcodec hon' hg (by rw [hread]; exact hgr) hseal, hv]
      rfl
    · intro j hj
      rw [replicaContent_unreadable hon' (by omega) (by rw [hread]; exact hbefore j hj)]
      rfl
  · intro hno
    rw [persistedState_eq hon', persistedState_eq hon, ← List.head?_filterMap, ← List.head?_filterMap]
    congr 1
    apply List.filterMap_congr
    intro i hi
    rw [List.mem_range] at hi
    cases hr : d.readFault (L.metaLba i) with
    | true =>
      rw [replicaContent_unreadable hon' hi (by rw [hread]; exact hr), replicaContent_unreadable hon hi hr]
    | false =>
      have hun : ¬ Reached L d i := fun h => hno ⟨i, hi, hr, h⟩
      have hblock := (writeAllReplicas_reached hon hcodec hi).2 hun
      rw [hd'] at hblock
      rw [replicaContent_congr hcodec hcodec rfl hon hon' hi (by rw [hread]) hblock]

/-- Persisted states of stores that share placement and key are the same, when the replicas are. -/
theorem persistedState_congr (hcodec : s.codec = jvckCbcCodec P) (hcodec' : s'.codec = jvckCbcCodec P)
    (hvmk : s'.vmk = s.vmk) (hon : On s.toPlacement L d) (hon' : On s'.toPlacement L d')
    (hread : ∀ i, i < L.count → d'.readFault (L.metaLba i) = d.readFault (L.metaLba i))
    (hblock : ∀ i, i < L.count → blockAt d' (L.metaLba i) = blockAt d (L.metaLba i)) :
    persistedState P s' d' = persistedState P s d := by
  rw [persistedState_eq hon', persistedState_eq hon, ← List.head?_filterMap, ← List.head?_filterMap]
  congr 1
  apply List.filterMap_congr
  intro i hi
  rw [List.mem_range] at hi
  rw [replicaContent_congr hcodec hcodec' hvmk hon hon' hi (hread i hi) (hblock i hi)]

end Persisted

/-! ## After a START request -/

/-- `encrypt_area` and `decrypt_area` work in place. -/
def InPlace (cipher : VolumeCipher) : Prop :=
  ∀ buf ss start, (cipher.encryptArea buf ss start).length = buf.length ∧
    (cipher.decryptArea buf ss start).length = buf.length

/-- An operation before the next START request. Others leave the replicas as they are. -/
def Quiet (L : Layout) (x : Sweep) : EngineOp → Prop
  | .startEncrypt | .startDecrypt => False
  | .resume | .pause => True
  | .progress cipher _ => InPlace cipher
  | .elsewhere device => ∀ i, i < L.count →
    device.readFault (L.metaLba i) = x.device.readFault (L.metaLba i) ∧
      blockAt device (L.metaLba i) = blockAt x.device (L.metaLba i)

/-- The request reaches a replica that can be read, or the persisted direction is `v` already. -/
def Persists (P : Primitives) (L : Layout) (v : VolumeState) (s : JvckMetadataStore) (d : Device) : Prop :=
  (∃ g, g < L.count ∧ d.readFault (L.metaLba g) = false ∧ Reached L d g) ∨ persistedState P s d = some v

/-- A volume that the default suite was attached with, and that could be reopened. -/
structure Attached (P : Primitives) (L : Layout) (x : Sweep) : Prop where
  bounded : Bounded x.store.toPlacement L x
  codec : x.store.codec = jvckCbcCodec P
  options : x.store.options = JvckMetadataReader.optionsOf x.store.header
  reopens : ∃ s, JvckMetadataStore.openStore P x.device x.store.vmk = .ok s ∧ s.header = x.store.header

/-- The store seals direction `v`, and a reboot finds it. -/
structure Carries (P : Primitives) (L : Layout) (v : VolumeState) (vmk : Bytes) (header : JvckHeader) (x : Sweep) :
    Prop where
  bounded : Bounded x.store.toPlacement L x
  codec : x.store.codec = jvckCbcCodec P
  options : x.store.options = JvckMetadataReader.optionsOf x.store.header
  vmk : x.store.vmk = vmk
  header : x.store.header = header
  state : VolumeState.fromU16 x.store.state = v
  persisted : persistedState P x.store x.device = some v

section Requests

variable {P : Primitives} {L : Layout} {v : VolumeState} {vmk : Bytes} {header : JvckHeader} {x x' : Sweep}

/-- A batch ends before it writes, or writes data sectors and re-seals the replicas. -/
theorem batchStep_result {e : EncryptionEngine} (st : JvckMetadataStore) {d : Device} (hss : 0 < d.ss) {b : Batch}
    (hplace : ∀ buf ss start, (b.area buf ss start).length = buf.length)
    (hfit : e.offsetSector.toNat + b.start.toNat + b.count.toNat ≤ d.sectors) :
    (∃ r e', EncryptionEngine.batchStep (jvckOffsetStore P) b.area b.finished b.start b.count b.boundary e st d =
        (r, e', st, d)) ∨
      ∃ r e' d₁, Frame (fun l => e.offsetSector.toNat + b.start.toNat ≤ l ∧
          l < e.offsetSector.toNat + b.start.toNat + b.count.toNat) d d₁ ∧
        EncryptionEngine.batchStep (jvckOffsetStore P) b.area b.finished b.start b.count b.boundary e st d =
          (r, e', { st with offset := b.boundary }, ({ st with offset := b.boundary }.writeAllReplicas d₁).2) := by
  have haddr : d.sectors * d.ss < 2 ^ 64 := d.addressable
  have hsec : d.sectors < 2 ^ 64 := d.totalSectors.toNat_lt
  have habs : (e.offsetSector + b.start).toNat = e.offsetSector.toNat + b.start.toNat := by
    rw [UInt64.toNat_add, Nat.mod_eq_of_lt (by omega)]
  have hlen : b.count.toNat * d.sectorSize.toNat % 2 ^ 64 = b.count.toNat * d.ss := by
    apply Nat.mod_eq_of_lt
    have hle : b.count.toNat * d.ss ≤ d.sectors * d.ss := Nat.mul_le_mul_right _ (by omega)
    exact Nat.lt_of_le_of_lt hle haddr
  unfold EncryptionEngine.batchStep
  simp only [hlen]
  cases hr : readSectors d (e.offsetSector + b.start) (b.count.toNat * d.ss) with
  | error err => exact .inl ⟨_, _, rfl⟩
  | ok buf =>
    obtain ⟨-, hbuf⟩ := (readSectors_ok_iff hss).mp hr
    have hbl : (b.area buf d.sectorSize.toNat b.start).length = b.count.toNat * d.ss := by
      rw [hplace, hbuf, ByteMemory.length_load]
    have hframe := writeSectors_frame d (e.offsetSector + b.start) hbl
    rw [habs] at hframe
    have hcases := writeSectors_cases d (e.offsetSector + b.start) (b.area buf d.sectorSize.toNat b.start)
    simp only
    generalize writeSectors d (e.offsetSector + b.start) (b.area buf d.sectorSize.toNat b.start) = w at hframe hcases ⊢
    obtain ⟨r, d₁⟩ := w
    cases r with
    | error err =>
      rcases hcases with hw | hw
      · cases (Prod.mk.inj hw).1
      · obtain ⟨-, rfl⟩ := Prod.mk.inj hw
        exact .inl ⟨_, _, rfl⟩
    | ok u =>
      obtain ⟨r, state, hp, -⟩ := persist_cases (jvckOffsetStore P) b.finished (e.setBoundary b.boundary) st d₁
      have hflush (s : JvckMetadataStore) (d : Device) : ((jvckOffsetStore P).flush s d).2 = (s, d) := rfl
      rw [hflush, Prod.mk.eta, ite_self] at hp
      exact .inr ⟨_, _, d₁, hframe, hp⟩

/-- A later re-seal by the same store keeps the direction. -/
theorem Carries.reseal (h : Carries P L v vmk header x) {d₁ : Device} {o : UInt64} {e : EncryptionEngine}
    (hdata : Frame L.InData x.device d₁)
    (hb : Bounded x.store.toPlacement L
      ⟨e, { x.store with offset := o }, ({ x.store with offset := o }.writeAllReplicas d₁).2⟩) :
    Carries P L v vmk header
      ⟨e, { x.store with offset := o }, ({ x.store with offset := o }.writeAllReplicas d₁).2⟩ := by
  have hon : On x.store.toPlacement L d₁ := h.bounded.on.frame hdata
  have hsame : persistedState P { x.store with offset := o } d₁ = some v := by
    rw [← h.persisted]
    apply persistedState_congr h.codec h.codec rfl h.bounded.on hon
    · intro i _
      rw [hdata.readFault]
    · intro i hi
      exact blockAt_frame hdata (L.metaLba_not_data hi)
  obtain ⟨hyes, hno⟩ := persistedState_resealed (s := { x.store with offset := o }) hon h.codec h.state
  refine ⟨hb, h.codec, h.options, h.vmk, h.header, h.state, ?_⟩
  by_cases hr : ∃ g, g < L.count ∧ d₁.readFault (L.metaLba g) = false ∧ Reached L d₁ g
  · exact hyes hr
  · exact (hno hr).trans hsame

theorem Carries.progress (h : Carries P L v vmk header x) {cipher : VolumeCipher} {batchSectors : UInt64}
    (hc : InPlace cipher) {r : VckResult Bool} {e' : EncryptionEngine} {st' : JvckMetadataStore} {d' : Device}
    (hs : EncryptionEngine.progressStep (jvckOffsetStore P) cipher batchSectors x.engine x.store x.device =
      (r, e', st', d')) : Carries P L v vmk header ⟨e', st', d'⟩ := by
  have hb' := h.bounded.progress hs
  cases hn : nextBatch cipher batchSectors x.engine with
  | none =>
    obtain ⟨state, hstep⟩ := progressStep_of_none (jvckOffsetStore P) x.store x.device hn
    rw [hstep] at hs
    cases hs
    exact ⟨hb', h.codec, h.options, h.vmk, h.header, h.state, h.persisted⟩
  | some b =>
    obtain ⟨hfits, hdir⟩ := nextBatch_cases h.bounded.le hn
    have hplace : ∀ buf ss start, (b.area buf ss start).length = buf.length := by
      intro buf ss start
      rcases hdir with hd | hd
      · rw [hd.area]
        exact (hc buf ss start).1
      · rw [hd.area]
        exact (hc buf ss start).2
    have hwithin := hfits.within
    have hoff := toNat_offsetSector h.bounded.on
    have hend := L.dataEnd_eq
    have hfoot := L.footerEnd_eq
    have htot := h.bounded.on.total
    have hss := h.bounded.on.ss
    rw [h.bounded.totalSectors, toNat_dataSectors h.bounded.on] at hwithin
    rw [← h.bounded.offsetSector] at hoff
    rw [progressStep_of_some (jvckOffsetStore P) x.store x.device hn] at hs
    rcases batchStep_result (P := P) (e := x.engine) x.store (d := x.device) (by omega) hplace (by omega) with
      ⟨r₁, e₁, hres⟩ | ⟨r₁, e₁, d₁, hframe, hres⟩
    · rw [hres] at hs
      cases hs
      exact ⟨hb', h.codec, h.options, h.vmk, h.header, h.state, h.persisted⟩
    · rw [hres] at hs
      cases hs
      apply h.reseal _ hb'
      apply hframe.mono
      rintro l ⟨h₁, h₂⟩
      exact ⟨by omega, by omega⟩

theorem Carries.step (h : Carries P L v vmk header x) {op : EngineOp} (hq : Quiet L x op)
    (hs : step P x op = some x') : Carries P L v vmk header x' := by
  have hb' := step_bounded h.bounded hs
  cases op with
  | startEncrypt => exact hq.elim
  | startDecrypt => exact hq.elim
  | resume =>
    obtain rfl := Option.some.inj hs
    exact ⟨hb', h.codec, h.options, h.vmk, h.header, h.state, h.persisted⟩
  | pause =>
    obtain rfl := Option.some.inj hs
    exact ⟨hb', h.codec, h.options, h.vmk, h.header, h.state, h.persisted⟩
  | progress cipher batchSectors =>
    obtain rfl := Option.some.inj hs
    exact h.progress hq rfl
  | elsewhere device =>
    rw [OpenConsistency.step] at hs
    split at hs
    · obtain rfl := Option.some.inj hs
      refine ⟨hb', h.codec, h.options, h.vmk, h.header, h.state, ?_⟩
      rw [← h.persisted]
      exact persistedState_congr h.codec h.codec rfl h.bounded.on hb'.on (fun i hi => (hq i hi).1)
        fun i hi => (hq i hi).2
    · cases hs

theorem Carries.run (h : Carries P L v vmk header x) {ops : List EngineOp}
    (hrun : StepRun.run (OpenConsistency.step P) x ops = some x')
    (hq : StepRun.Along (OpenConsistency.step P) (Quiet L) x ops) : Carries P L v vmk header x' :=
  StepRun.run_simulates_along (R := fun y (_ : Unit) => Carries P L v vmk header y) (fun u _ => u)
    (fun h hq hs => h.step hq hs) (t := ()) h hq hrun

/-- The engine, the store and the volume after `store_state(v)` was called and its answer dropped. -/
def started (v : VolumeState) (x : Sweep) : Sweep where
  engine := { x.engine with state := x.engine.startState v }
  store := { x.store with state := v.asU16 }
  device := ({ x.store with state := v.asU16 }.writeAllReplicas x.device).2

end Requests

/-! ## The handlers -/

/-- The registry with the volumes' devices. -/
structure World where
  state : State JvckMetadataStore
  device : VolId → Device

/-- The first volume of the registry that is bound to the filter. -/
def getByFilter {σ : Type} (s : State σ) (f : FilterId) : Option (VolId × Volume σ) :=
  s.all.find? fun x => x.2.filterDevice = some f

def resolveVolume {σ : Type} (k : FindAnswers) (volumePath : String) (s : State σ) : Option (VolId × Volume σ) :=
  s.get volumePath <|> (findFilterForVolume k (win32VolumePathToNt volumePath) s).bind fun x => getByFilter s x.1

/-- What both START handlers do with the engine's `start`. -/
def handleStart (P : Primitives)
    (start : EncryptedOffsetStore (OffsetStore JvckMetadataStore) → EncryptionEngine → OffsetStore JvckMetadataStore →
      Device → EncryptionEngine × OffsetStore JvckMetadataStore × Device)
    (k : FindAnswers) (input : VckResult VolumeRequest) (w : World) : VckResult Unit × World :=
  match input with
  | .error e => (.error e, w)
  | .ok req =>
    match resolveVolume k req.volumePath w.state with
    | none => (.error (.notFound "volume is not attached"), w)
    | some (id, volume) =>
      let (encryption, offsetStore, device) :=
        start (DriverState.offsetStore (jvckOffsetStore P)) volume.encryption volume.offsetStore (w.device id)
      (.ok (), {
        state := w.state.modifyAttached id fun v => { v with encryption, offsetStore }
        device := Function.update w.device id device })

def handleStartEncrypt (P : Primitives) (k : FindAnswers) (input : VckResult VolumeRequest) (w : World) :
    VckResult Unit × World :=
  handleStart P EncryptionEngine.startEncrypt k input w

def handleStartDecrypt (P : Primitives) (k : FindAnswers) (input : VckResult VolumeRequest) (w : World) :
    VckResult Unit × World :=
  handleStart P EncryptionEngine.startDecrypt k input w

/-- The handler of the request for direction `v`. -/
def handleDirection (P : Primitives) : VolumeState → FindAnswers → VckResult VolumeRequest → World →
    VckResult Unit × World
  | .encrypt => handleStartEncrypt P
  | .decrypt => handleStartDecrypt P

section Handlers

variable {P : Primitives} {L : Layout} {v : VolumeState} {k : FindAnswers} {w w' : World} {id : VolId}
  {volume : Volume JvckMetadataStore} {st : JvckMetadataStore}

theorem volumes_of_get {σ : Type} {s : State σ} {path : String} {x : VolId × Volume σ} (h : s.get path = some x) :
    s.volumes x.1 = some x.2 := by
  rw [State.get] at h
  obtain ⟨id, -, hv⟩ := Option.bind_eq_some_iff.mp h
  obtain ⟨volume, hvol, rfl⟩ := Option.map_eq_some_iff.mp hv
  exact hvol

theorem volumes_of_resolve {σ : Type} {s : State σ} {path : String} {x : VolId × Volume σ}
    (h : resolveVolume k path s = some x) : s.volumes x.1 = some x.2 := by
  rw [resolveVolume] at h
  cases hg : s.get path with
  | some y =>
    rw [hg] at h
    obtain rfl := Option.some.inj h
    exact volumes_of_get hg
  | none =>
    rw [hg] at h
    change (findFilterForVolume k (win32VolumePathToNt path) s).bind _ = some x at h
    obtain ⟨f, -, hf⟩ := Option.bind_eq_some_iff.mp h
    have hmem := List.mem_of_find?_eq_some hf
    rw [State.all] at hmem
    obtain ⟨e, -, he⟩ := List.mem_filterMap.mp hmem
    exact volumes_of_get he

end Handlers

/-! ## Volumes in use -/

section Reachable

variable {E : Env} {d : Device} {x x' : Sweep}

theorem step_suite {P : Primitives} {p : Placement} {L : Layout} (h : Bounded p L x) {op : EngineOp}
    (hs : step P x op = some x') : suiteOf x'.store = suiteOf x.store := by
  cases op with
  | startEncrypt =>
    obtain rfl := Option.some.inj hs
    rfl
  | startDecrypt =>
    obtain rfl := Option.some.inj hs
    rfl
  | resume =>
    obtain rfl := Option.some.inj hs
    rfl
  | pause =>
    obtain rfl := Option.some.inj hs
    rfl
  | progress cipher batchSectors =>
    cases hn : nextBatch cipher batchSectors x.engine with
    | none =>
      obtain ⟨state, hstep⟩ := progressStep_of_none (jvckOffsetStore P) x.store x.device hn
      rw [OpenConsistency.step, hstep] at hs
      obtain rfl := Option.some.inj hs
      rfl
    | some b =>
      have hon : On x.store.toPlacement L x.device := by rw [h.placement]; exact h.on
      obtain ⟨r, e, st, d, hb, -, -, hsuite, -⟩ := batchStep_bounded (P := P) (e := x.engine) hon b
      rw [OpenConsistency.step, progressStep_of_some (jvckOffsetStore P) x.store x.device hn, hb] at hs
      obtain rfl := Option.some.inj hs
      exact hsuite
  | elsewhere device =>
    rw [OpenConsistency.step] at hs
    split at hs
    · obtain rfl := Option.some.inj hs
      rfl
    · cases hs

/-- Every state of a volume that `on_attach` set up inside its data region is attached, as long as it can be
reopened. -/
theorem attached_of_run {offsetSector : UInt64} {encryptedOffset : EncryptedOffset} {store : JvckMetadataStore}
    (hatt : onAttach E d = .ok (offsetSector, encryptedOffset, store)) (hrec : Recorded E.primitives E.vmk d)
    {ops : List EngineOp}
    (hrun : StepRun.run (step E.primitives) ⟨.new offsetSector encryptedOffset, store, d⟩ ops = some x)
    (hre : ∃ s, JvckMetadataStore.openStore E.primitives x.device x.store.vmk = .ok s ∧ s.header = x.store.header) :
    ∃ L, Attached E.primitives L x := by
  have hopen := (onAttach_ok_iff.mp hatt).1
  obtain ⟨-, rfl, rfl⟩ := onAttach_inv hopen hatt
  obtain ⟨hfound, hopt, L, hL, hon⟩ := openStore_on hopen
  have hle := (offset_le_iff hopen hon).mpr (hrec.offset hfound hL)
  rw [UInt64.le_iff_toNat_le, toNat_dataSectors hon] at hle
  have hstart : Bounded store.toPlacement L
      ⟨.new store.geometry.offsetSector ⟨store.offset, store.geometry.dataSectors⟩, store, d⟩ :=
    ⟨hon, rfl, rfl, rfl, hle⟩
  have hinv := StepRun.run_simulates
    (R := fun y (_ : Unit) => Bounded store.toPlacement L y ∧ suiteOf y.store = suiteOf store) (fun u _ => u)
    (fun h hs => ⟨step_bounded h.1 hs, (step_suite h.1 hs).trans h.2⟩) (t := ()) ⟨hstart, rfl⟩ hrun
  obtain ⟨hb, hsuite⟩ := hinv
  obtain ⟨hcodec, hheader, -, -⟩ := Suite.mk.inj hsuite
  refine ⟨L, by rw [hb.placement]; exact hb, ?_, ?_, hre⟩
  · exact hcodec.trans (openStore_inv hopen).1
  · rw [show x.store.options = store.options from congrArg Placement.options hb.placement, hheader]
    exact hopt

end Reachable

/-! ## A volume that was asked to decrypt -/

section Sample

open JvckRecovery

/-- The sample volume at boundary 5, encrypting. -/
def sampleVolume : Volume JvckMetadataStore where
  sectorSize := 512
  ioConfig := .encrypted none 0 ⟨5, 512⟩
  encryption := .new 0 ⟨5, 512⟩
  offsetStore := .provided (sampleStore 5 .encrypt)
  encryptedBoundary := 5
  cipherCalls := 0
  volumePath := "D:"
  attachSource := .ioctl
  filterDevice := none

def noAnswers : FindAnswers := ⟨none, none, "", none, none⟩

variable {d : Device}

end Sample

end StartRequest
