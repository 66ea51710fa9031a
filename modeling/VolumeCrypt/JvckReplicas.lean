import VolumeCrypt.JvckStore

/-!
# What the replicas hold

Reading and writing single Metadata blocks, the two recovery loops as functions of
what each replica contributes, and the meaning of an intact and of a damaged
replica. Everything that opens a volume is derived from the lemmas of this module.
-/
namespace JvckReplicas

open ByteString ByteMemory VckTypes SectorIo JvckLayout JvckStore
open JvckMetadata (Primitives JvckHeader JvckSecrets)

/-- The first 512 bytes of a sector. -/
def blockAt (d : Device) (lba : Nat) : Fixed 512 := Fixed.ofBytes 512 (slice (d.sector lba) 0 512)

theorem readBlock_eq {d : Device} (hs : 512 ≤ d.ss) {lba : UInt64} (hl : lba.toNat < d.sectors) :
    readBlock d d.sectorSize lba =
      if d.readFault lba.toNat then .error (.io "read_sectors failed") else .ok (blockAt d lba.toNat) := by
  have hiff := reachable_iff d (by omega) d.readFault lba.toNat 1
  rw [Nat.one_mul] at hiff
  rw [readBlock, readSectors]
  by_cases hf : d.readFault lba.toNat = true
  · rw [if_pos hf, if_neg]
    · rfl
    · intro h
      have hr := (hiff.mp h).2 0 (by omega)
      rw [Nat.add_zero, hf] at hr
      cases hr
  · rw [if_neg hf, if_pos]
    · rfl
    · apply hiff.mpr
      refine ⟨by omega, ?_⟩
      intro i hi
      obtain rfl : i = 0 := by omega
      simpa using hf

theorem blockAt_frame {S : Nat → Prop} {d d' : Device} (h : Frame S d d') {lba : Nat} (hl : ¬ S lba) :
    blockAt d' lba = blockAt d lba := by
  rw [blockAt, h.sector_eq hl, blockAt]

/-- Writing a block touches its sector only, and the block reads back. -/
theorem writeBlock_spec {d : Device} (hs : 512 ≤ d.ss) (lba : UInt64) (block : Fixed 512) :
    Frame (· = lba.toNat) d (writeBlock d d.sectorSize lba block).2 ∧
      ((writeBlock d d.sectorSize lba block).1 = .ok () →
        blockAt (writeBlock d d.sectorSize lba block).2 lba.toNat = block) := by
  have hlen : (copyAt (List.replicate d.sectorSize.toNat 0) 0 block.toList).length = d.ss := by
    rw [length_copyAt, List.length_replicate]
    · rfl
    · rw [List.length_replicate, List.Vector.toList_length]
      exact hs
  constructor
  · have hf := writeSectors_frame d lba (n := 1) (hlen.trans (Nat.one_mul _).symm)
    exact hf.mono (by intro i hi; omega)
  · intro hok
    rw [writeBlock] at hok ⊢
    rcases writeSectors_cases d lba (copyAt (List.replicate d.sectorSize.toNat 0) 0 block.toList) with hw | hw
    · rw [hw, blockAt, Device.sector]
      have hsame := load_save_same d.bytes (a := lba.toNat * d.ss) hlen
      change Fixed.ofBytes 512 (slice (load (save d.bytes _ _) (lba.toNat * d.ss) d.ss) 0 512) = block
      rw [hsame, slice_copyAt_same (Nat.zero_le _) (List.Vector.toList_length _), Fixed.ofBytes_toList]
    · rw [hw] at hok
      cases hok

/-- A write loop touches the listed sectors only; when it ends well each of them holds the block. -/
theorem writeBlocks_spec {d : Device} (hs : 512 ≤ d.ss) (block : Fixed 512) (lbas : List UInt64) :
    Frame (fun i => ∃ lba ∈ lbas, i = lba.toNat) d (JvckMetadataStore.writeBlocks d.sectorSize block d lbas).2 ∧
      ((JvckMetadataStore.writeBlocks d.sectorSize block d lbas).1 = .ok () →
        ∀ lba ∈ lbas, blockAt (JvckMetadataStore.writeBlocks d.sectorSize block d lbas).2 lba.toNat = block) := by
  induction lbas generalizing d with
  | nil => exact ⟨.refl _ _, fun _ lba h => by cases h⟩
  | cons lba lbas ih =>
    obtain ⟨hframe, hblock⟩ := writeBlock_spec hs lba block
    rw [JvckMetadataStore.writeBlocks]
    generalize hw : writeBlock d d.sectorSize lba block = w at hframe hblock
    obtain ⟨r, d₁⟩ := w
    cases r with
    | error e =>
      refine ⟨hframe.mono ?_, fun h => by cases h⟩
      intro i hi
      exact ⟨lba, by simp, hi⟩
    | ok u =>
      cases u
      simp only at hframe hblock ⊢
      obtain ⟨hrest, hblocks⟩ := ih (d := d₁) (by rw [hframe.ss]; exact hs)
      rw [hframe.sectorSize] at hrest hblocks
      constructor
      · apply Frame.trans (hframe.mono _) (hrest.mono _)
        · intro i hi
          exact ⟨lba, by simp, hi⟩
        · rintro i ⟨l, hl, rfl⟩
          exact ⟨l, by simp [hl], rfl⟩
      · intro hok l hl
        by_cases hmem : ∃ l' ∈ lbas, l.toNat = l'.toNat
        · obtain ⟨l', hl', he⟩ := hmem
          rw [he]
          exact hblocks hok l' hl'
        · rw [blockAt_frame hrest hmem]
          rcases List.mem_cons.mp hl with rfl | hl
          · exact hblock trivial
          · exact absurd ⟨l, hl, rfl⟩ hmem

theorem writeBlocks_ok {d : Device} (hs : 512 ≤ d.ss) (hd : Healthy d) (block : Fixed 512) {lbas : List UInt64}
    (hl : ∀ lba ∈ lbas, lba.toNat < d.sectors) :
    (JvckMetadataStore.writeBlocks d.sectorSize block d lbas).1 = .ok () := by
  induction lbas generalizing d with
  | nil => rfl
  | cons lba lbas ih =>
    have hlen : (copyAt (List.replicate d.sectorSize.toNat 0) 0 block.toList).length = 1 * d.ss := by
      rw [Nat.one_mul, length_copyAt, List.length_replicate]
      · rfl
      · rw [List.length_replicate, List.Vector.toList_length]
        exact hs
    have hlba := hl lba (by simp)
    have hw := writeSectors_of_reachable (by omega) hlen
      (h := ⟨by omega, fun i _ => hd.writeFault (lba.toNat + i)⟩)
    obtain ⟨hframe, _⟩ := writeBlock_spec hs lba block
    rw [JvckMetadataStore.writeBlocks]
    generalize hb : writeBlock d d.sectorSize lba block = w at hframe
    rw [writeBlock, hw] at hb
    obtain ⟨rfl⟩ := hb
    simp only at hframe ⊢
    exact ih (by rw [hframe.ss]; exact hs) (hd.frame hframe)
      (by intro l hl'; rw [hframe.sectors]; exact hl l (by simp [hl']))

/-! ## Placement on a device -/

/-- The placement describes layout `L` of the device. -/
structure On (p : Placement) (L : Layout) (d : Device) : Prop where
  layout : L.Of d.sectorSize d.totalSectors p.options
  geometry : p.geometry = L.geometry d.sectorSize
  volumeSectors : p.volumeSectors = d.totalSectors

namespace On

variable {p : Placement} {L : Layout} {d d' : Device}

theorem frame {S : Nat → Prop} (h : On p L d) (hf : Frame S d d') : On p L d' := by
  constructor
  · rw [hf.sectorSize, hf.totalSectors]
    exact h.layout
  · rw [hf.sectorSize]
    exact h.geometry
  · rw [hf.totalSectors]
    exact h.volumeSectors

theorem sectorSize (h : On p L d) : p.geometry.sectorSize = d.sectorSize := by
  rw [h.geometry]
  rfl

theorem ss (h : On p L d) : 512 ≤ d.ss := h.layout.sectorSize

theorem total (h : On p L d) : L.total = d.sectors := h.layout.total

theorem lbas (h : On p L d) : p.lbas = (List.range L.count).map fun i => UInt64.ofNat (L.metaLba i) := by
  rw [Placement.lbas, Placement.rs, h.sectorSize, h.volumeSectors]
  exact h.layout.metadataSectorLbas_eq

theorem lt_of_mem_lbas (h : On p L d) {lba : UInt64} (hmem : lba ∈ p.lbas) : lba.toNat < d.sectors := by
  rw [Placement.lbas, Placement.rs, h.sectorSize, h.volumeSectors] at hmem
  exact h.layout.lt_of_mem_metadataSectorLbas hmem

theorem length_lbas (h : On p L d) : p.lbas.length = L.count := by
  rw [h.lbas, List.length_map, List.length_range]

theorem mem_take_lbas (h : On p L d) {k i : Nat} :
    (∃ lba ∈ p.lbas.take k, i = lba.toNat) ↔ ∃ j, j < k ∧ j < L.count ∧ i = L.metaLba j := by
  rw [h.lbas, ← List.map_take, List.take_range]
  simp only [List.mem_map, List.mem_range]
  constructor
  · rintro ⟨lba, ⟨j, hj, rfl⟩, rfl⟩
    exact ⟨j, by omega, by omega, h.layout.toNat_metaLba (by omega)⟩
  · rintro ⟨j, hj, hc, rfl⟩
    exact ⟨_, ⟨j, by omega, rfl⟩, (h.layout.toNat_metaLba hc).symm⟩

/-- The block of replica `i`, or the read error. -/
theorem readBlock (h : On p L d) {i : Nat} (hi : i < L.count) :
    JvckStore.readBlock d p.geometry.sectorSize (UInt64.ofNat (L.metaLba i)) =
      if d.readFault (L.metaLba i) then .error (.io "read_sectors failed") else .ok (blockAt d (L.metaLba i)) := by
  have hn := h.layout.toNat_metaLba hi
  have hlt := L.metaLba_lt_total hi
  rw [h.total] at hlt
  rw [h.sectorSize, readBlock_eq h.ss (by rw [hn]; exact hlt), hn]

end On

/-- `write_all_replicas` cut off after `k` writes, when it is not stopped by an error. -/
theorem writeReplicas_spec {s : JvckMetadataStore} {L : Layout} {d d' : Device} {k : Nat} {r : VckResult Unit}
    (h : On s.toPlacement L d) (hw : s.writeReplicas k d = (r, d')) :
    Frame (fun i => ∃ j, j < k ∧ j < L.count ∧ i = L.metaLba j) d d' ∧
      (r = .ok () → ∃ salt block, s.sealBlock salt = .ok block ∧
        ∀ j, j < k → j < L.count → blockAt d' (L.metaLba j) = block) := by
  have hfill := fillRandom_frame d
  rw [JvckMetadataStore.writeReplicas] at hw
  generalize fillRandom d = f at hw hfill
  obtain ⟨fr, d₀⟩ := f
  cases fr with
  | error e =>
    obtain ⟨rfl, rfl⟩ := Prod.mk.inj hw
    exact ⟨hfill.mono (fun _ hn => hn.elim), fun h => by cases h⟩
  | ok salt =>
    simp only at hw hfill
    cases hseal : s.sealBlock salt with
    | error e =>
      rw [hseal] at hw
      obtain ⟨rfl, rfl⟩ := Prod.mk.inj hw
      exact ⟨hfill.mono (fun _ hn => hn.elim), fun h => by cases h⟩
    | ok block =>
      have h₀ := h.frame hfill
      have hspec := writeBlocks_spec h₀.ss block (s.lbas.take k)
      rw [hseal] at hw
      simp only [h₀.sectorSize] at hw
      rw [hw] at hspec
      obtain ⟨hframe, hblocks⟩ := hspec
      constructor
      · apply Frame.trans (hfill.mono (fun _ hn => hn.elim)) (hframe.mono _)
        intro i hi
        exact h₀.mem_take_lbas.mp hi
      · intro hr
        refine ⟨salt, block, hseal, ?_⟩
        intro j hj hc
        obtain ⟨lba, hmem, he⟩ := h₀.mem_take_lbas.mpr ⟨j, hj, hc, rfl⟩
        rw [he]
        exact hblocks hr lba hmem

theorem writeReplicas_ok {s : JvckMetadataStore} {L : Layout} {d : Device} (h : On s.toPlacement L d)
    (hd : Healthy d) (hseal : ∀ salt, ∃ block, s.sealBlock salt = .ok block) (k : Nat) :
    (s.writeReplicas k d).1 = .ok () := by
  obtain ⟨salt, hsalt⟩ := hd.random d.draws
  obtain ⟨block, hblock⟩ := hseal salt
  have hfill := fillRandom_frame d
  have h₀ := h.frame hfill
  rw [JvckMetadataStore.writeReplicas]
  rw [fillRandom] at hfill h₀ ⊢
  simp only [hsalt, hblock] at hfill h₀ ⊢
  rw [h₀.sectorSize]
  refine writeBlocks_ok h₀.ss (hd.frame hfill) block ?_
  intro lba hmem
  exact h₀.lt_of_mem_lbas (List.mem_of_mem_take hmem)

/-! ## The recovery loops -/

/-- What replica `idx` contributes to `load_offset`. -/
def replicaOffset (P : Primitives) (s : JvckMetadataStore) (d : Device) (idx : Nat) (lba : UInt64) : Option UInt64 :=
  match readBlock d s.geometry.sectorSize lba with
  | .error _ => none
  | .ok block =>
    match JvckMetadata.verifyCrc P block.toList with
    | .error _ => none
    | .ok () => (s.codec.readOffset (s.ctx s.header d idx block) s.vmk).toOption

/-- Keep the larger of the best offset so far and a new one. -/
def better (best : Option UInt64) (offset : UInt64) : Option UInt64 := some (best.elim offset (max · offset))

theorem loadLoop_eq (P : Primitives) (s : JvckMetadataStore) (d : Device) (idx : Nat) (best : Option UInt64)
    (lbas : List UInt64) :
    s.loadLoop P d idx best lbas =
      ((lbas.zipIdx idx).filterMap fun x => replicaOffset P s d x.2 x.1).foldl better best := by
  induction lbas generalizing idx best with
  | nil => rfl
  | cons lba lbas ih =>
    rw [JvckMetadataStore.loadLoop, List.zipIdx_cons, List.filterMap_cons]
    simp only [replicaOffset]
    cases readBlock d s.geometry.sectorSize lba with
    | error e => exact ih (idx + 1) best
    | ok block =>
      simp only
      cases JvckMetadata.verifyCrc P block.toList with
      | error e => exact ih (idx + 1) best
      | ok u =>
        simp only
        cases s.codec.readOffset (s.ctx s.header d idx block) s.vmk with
        | error e => exact ih (idx + 1) best
        | ok offset => exact ih (idx + 1) (better best offset)

theorem foldl_better_some (l : List UInt64) (b : UInt64) :
    ∃ m, l.foldl better (some b) = some m ∧ (m = b ∨ m ∈ l) ∧ b ≤ m ∧ ∀ x ∈ l, x ≤ m := by
  induction l generalizing b with
  | nil => exact ⟨b, rfl, .inl rfl, UInt64.le_refl b, by simp⟩
  | cons x xs ih =>
    obtain ⟨m, hm, hmem, hle, hall⟩ := ih (max b x)
    have hmax : b ≤ max b x ∧ x ≤ max b x ∧ (max b x = b ∨ max b x = x) := by
      rw [UInt64.max_def]
      split
      · exact ⟨by assumption, UInt64.le_refl x, .inr rfl⟩
      · rename_i hlt
        exact ⟨UInt64.le_refl b, UInt64.le_of_lt (UInt64.not_le.mp hlt), .inl rfl⟩
    refine ⟨m, hm, ?_, UInt64.le_trans hmax.1 hle, ?_⟩
    · rcases hmem with rfl | hmem
      · rcases hmax.2.2 with he | he
        · exact .inl he
        · exact .inr (by simp [he])
      · exact .inr (by simp [hmem])
    · intro y hy
      rcases List.mem_cons.mp hy with rfl | hy
      · exact UInt64.le_trans hmax.2.1 hle
      · exact hall y hy

/-- `m` is the largest of `l`. -/
def IsLargest (m : UInt64) (l : List UInt64) : Prop := m ∈ l ∧ ∀ x ∈ l, x ≤ m

theorem foldl_better_none {l : List UInt64} (hl : l ≠ []) : ∃ m, l.foldl better none = some m ∧ IsLargest m l := by
  cases l with
  | nil => exact absurd rfl hl
  | cons x xs =>
    obtain ⟨m, hm, hmem, hle, hall⟩ := foldl_better_some xs x
    refine ⟨m, hm, ?_, ?_⟩
    · rcases hmem with rfl | hmem
      · exact List.mem_cons_self
      · exact List.mem_cons_of_mem _ hmem
    · intro y hy
      rcases List.mem_cons.mp hy with rfl | hy
      · exact hle
      · exact hall y hy

/-- What Phase B gets from replica `idx`. -/
def replicaSelect (P : Primitives) (r : JvckMetadataReader) (d : Device)
    (select : ReplicaCtx → VckResult (MetadataCodec × Unsealed)) (idx : Nat) (lba : UInt64) :
    Option (MetadataCodec × Unsealed) :=
  match readBlock d r.geometry.sectorSize lba with
  | .error _ => none
  | .ok block =>
    match JvckMetadata.verifyCrc P block.toList with
    | .error _ => none
    | .ok () => (select (r.ctx r.header d idx block)).toOption

theorem selectLoop_eq (P : Primitives) (r : JvckMetadataReader) (d : Device)
    (select : ReplicaCtx → VckResult (MetadataCodec × Unsealed)) (idx : Nat) (lastErr : Option VckError)
    (lbas : List UInt64) :
    (r.selectLoop P d select idx lastErr lbas).toOption =
      (lbas.zipIdx idx).findSome? fun x => replicaSelect P r d select x.2 x.1 := by
  induction lbas generalizing idx lastErr with
  | nil => rfl
  | cons lba lbas ih =>
    rw [JvckMetadataReader.selectLoop, List.zipIdx_cons, List.findSome?_cons]
    simp only [replicaSelect]
    cases readBlock d r.geometry.sectorSize lba with
    | error e => exact ih (idx + 1) (some e)
    | ok block =>
      simp only
      cases JvckMetadata.verifyCrc P block.toList with
      | error e => exact ih (idx + 1) lastErr
      | ok u =>
        simp only
        cases select (r.ctx r.header d idx block) with
        | ok pair => rfl
        | error e => exact ih (idx + 1) (some e)

/-! ## Codecs that round-trip -/

/-- What the trait demands of a codec: `unseal` undoes `seal`, and the block carries the header. -/
structure LawfulCodec (P : Primitives) (codec : MetadataCodec) : Prop where
  parse : ∀ {header secrets o st salt vmk block},
    codec.sealPayload header secrets o st salt vmk = .ok block → JvckMetadata.parse P block.toList = .ok header
  unsealed : ∀ {header secrets o st salt vmk block}, codec.sealPayload header secrets o st salt vmk = .ok block →
    ∀ ctx : ReplicaCtx, ctx.header = header → ctx.block = block → codec.unsealPayload ctx vmk = .ok ⟨o, st, secrets⟩
  readOffset : ∀ {header secrets o st salt vmk block}, codec.sealPayload header secrets o st salt vmk = .ok block →
    ∀ ctx : ReplicaCtx, ctx.header = header → ctx.block = block → codec.readOffset ctx vmk = .ok o

theorem jvckCbcCodec_lawful (P : Primitives) : LawfulCodec P (jvckCbcCodec P) := by
  constructor
  · intro header secrets o st salt vmk block hs
    obtain rfl := Except.ok.inj hs
    exact JvckMetadata.parse_encode P header secrets o st salt vmk
  · intro header secrets o st salt vmk block hs ctx _ hb
    obtain rfl := Except.ok.inj hs
    have hd : JvckMetadata.decryptPayload P ctx.block.toList vmk = .ok (o, st, secrets) := by
      rw [hb]
      exact JvckMetadata.decryptPayload_encode P header secrets o st salt vmk
    simp only [jvckCbcCodec, hd]
    rfl
  · intro header secrets o st salt vmk block hs ctx _ hb
    obtain rfl := Except.ok.inj hs
    change JvckMetadata.readEncryptedOffset P ctx.block.toList vmk = _
    rw [hb]
    exact JvckMetadata.readEncryptedOffset_encode P header secrets o st salt vmk

/-- What every replica of one volume is sealed under. -/
structure Suite where
  codec : MetadataCodec
  header : JvckHeader
  secrets : JvckSecrets
  vmk : Bytes

def Suite.Seals (K : Suite) (o : UInt64) (st : VolumeState) (block : Fixed 512) : Prop :=
  ∃ salt, K.codec.sealPayload K.header K.secrets o st salt K.vmk = .ok block

/-- A readable sector that holds a sealed block. -/
def Suite.Intact (K : Suite) (d : Device) (lba : Nat) (o : UInt64) (st : VolumeState) : Prop :=
  d.readFault lba = false ∧ K.Seals o st (blockAt d lba)

/-- A sector that cannot be read or fails the checksum test. -/
def Damaged (P : Primitives) (d : Device) (lba : Nat) : Prop :=
  d.readFault lba = true ∨ JvckMetadata.verifyCrc P (blockAt d lba).toList ≠ .ok ()

/-- Replica `i` is intact with the offset and state of `content i`, or damaged where that is `none`. -/
def Suite.Holds (P : Primitives) (K : Suite) (L : Layout) (d : Device)
    (content : Nat → Option (UInt64 × VolumeState)) : Prop :=
  ∀ i, i < L.count →
    match content i with
    | some (o, st) => K.Intact d (L.metaLba i) o st
    | none => Damaged P d (L.metaLba i)

/-- The offsets of the intact replicas. -/
def survivors (content : Nat → Option (UInt64 × VolumeState)) (n : Nat) : List UInt64 :=
  (List.range n).filterMap fun i => (content i).map Prod.fst

section Recovery

variable {P : Primitives} {K : Suite} {L : Layout} {d : Device} {content : Nat → Option (UInt64 × VolumeState)}

theorem Suite.Intact.verifyCrc (hc : LawfulCodec P K.codec) {lba : Nat} {o : UInt64} {st : VolumeState}
    (h : K.Intact d lba o st) : JvckMetadata.verifyCrc P (blockAt d lba).toList = .ok () := by
  obtain ⟨_, salt, hs⟩ := h
  exact JvckMetadata.verifyCrc_of_parse (hc.parse hs)

/-- What both recovery loops meet at replica `i`: a sealed block, an unreadable sector or a bad checksum. -/
theorem Suite.Holds.inspect (hc : LawfulCodec P K.codec) {p : Placement} (hon : On p L d) (h : K.Holds P L d content)
    {i : Nat} (hi : i < L.count) :
    (∃ o st, content i = some (o, st) ∧ K.Seals o st (blockAt d (L.metaLba i)) ∧
      readBlock d p.geometry.sectorSize (UInt64.ofNat (L.metaLba i)) = .ok (blockAt d (L.metaLba i)) ∧
      JvckMetadata.verifyCrc P (blockAt d (L.metaLba i)).toList = .ok ()) ∨
    (content i = none ∧ ∃ e, readBlock d p.geometry.sectorSize (UInt64.ofNat (L.metaLba i)) = .error e) ∨
    (content i = none ∧
      readBlock d p.geometry.sectorSize (UInt64.ofNat (L.metaLba i)) = .ok (blockAt d (L.metaLba i)) ∧
      ∃ e, JvckMetadata.verifyCrc P (blockAt d (L.metaLba i)).toList = .error e) := by
  have hi' := h i hi
  have hread := hon.readBlock hi
  cases hcon : content i with
  | some x =>
    obtain ⟨o, st⟩ := x
    rw [hcon] at hi'
    rw [hi'.1, if_neg (by simp)] at hread
    exact .inl ⟨o, st, rfl, hi'.2, hread, hi'.verifyCrc hc⟩
  | none =>
    rw [hcon] at hi'
    right
    cases hf : d.readFault (L.metaLba i) with
    | true =>
      rw [hf, if_pos rfl] at hread
      exact .inl ⟨rfl, _, hread⟩
    | false =>
      rw [hf, if_neg (by simp)] at hread
      cases hv : JvckMetadata.verifyCrc P (blockAt d (L.metaLba i)).toList with
      | ok u =>
        rcases hi' with hbad | hbad
        · rw [hf] at hbad
          cases hbad
        · exact absurd hv hbad
      | error e => exact .inr ⟨rfl, hread, e, rfl⟩

theorem replicaOffset_of_holds (hc : LawfulCodec P K.codec) {s : JvckMetadataStore} (hon : On s.toPlacement L d)
    (hcodec : s.codec = K.codec) (hheader : s.header = K.header) (hvmk : s.vmk = K.vmk)
    (h : K.Holds P L d content) {i : Nat} (hi : i < L.count) :
    replicaOffset P s d i (UInt64.ofNat (L.metaLba i)) = (content i).map Prod.fst := by
  rw [replicaOffset]
  obtain ⟨o, st, hcon, ⟨salt, hs⟩, hread, hv⟩ | ⟨hcon, e, hread⟩ | ⟨hcon, hread, e, hv⟩ := h.inspect hc hon hi
  · have ho := hc.readOffset hs (s.ctx s.header d i (blockAt d (L.metaLba i))) hheader rfl
    simp only [hread, hv, hcodec, hvmk, ho, hcon]
    rfl
  · rw [hread, hcon]
    rfl
  · simp only [hread, hv, hcon]
    rfl

theorem zipIdx_lbas {p : Placement} (hon : On p L d) :
    p.lbas.zipIdx 0 = (List.range L.count).map fun i => (UInt64.ofNat (L.metaLba i), i) := by
  rw [hon.lbas, List.zipIdx_map]
  apply List.ext_getElem?
  intro j
  simp only [List.getElem?_map, List.getElem?_zipIdx]
  by_cases hj : j < L.count
  · simp [List.getElem?_range hj]
  · simp [hj]

/-- Recovery returns the largest surviving offset. -/
theorem loadOffset_of_holds (hc : LawfulCodec P K.codec) {s : JvckMetadataStore} (hon : On s.toPlacement L d)
    (hcodec : s.codec = K.codec) (hheader : s.header = K.header) (hvmk : s.vmk = K.vmk)
    (h : K.Holds P L d content) (hne : survivors content L.count ≠ []) :
    ∃ m, s.loadOffset P d = .ok m ∧ IsLargest m (survivors content L.count) := by
  have hlist : ((s.lbas.zipIdx 0).filterMap fun x => replicaOffset P s d x.2 x.1) = survivors content L.count := by
    rw [zipIdx_lbas hon, List.filterMap_map, survivors]
    apply List.filterMap_congr
    intro i hi
    exact replicaOffset_of_holds hc hon hcodec hheader hvmk h (List.mem_range.mp hi)
  obtain ⟨m, hm, hlargest⟩ := foldl_better_none hne
  refine ⟨m, ?_, hlargest⟩
  rw [JvckMetadataStore.loadOffset, loadLoop_eq, hlist, hm]

/-- The selector that tries one codec on every replica. -/
def selectWith (codec : MetadataCodec) (vmk : Bytes) (ctx : ReplicaCtx) : VckResult (MetadataCodec × Unsealed) := do
  let unsealed ← codec.unsealPayload ctx vmk
  return (codec, unsealed)

theorem replicaSelect_of_holds (hc : LawfulCodec P K.codec) {r : JvckMetadataReader} (hon : On r.toPlacement L d)
    (hheader : r.header = K.header) (h : K.Holds P L d content) {i : Nat} (hi : i < L.count) :
    replicaSelect P r d (selectWith K.codec K.vmk) i (UInt64.ofNat (L.metaLba i)) =
      (content i).map fun x => (K.codec, ⟨x.1, x.2, K.secrets⟩) := by
  rw [replicaSelect]
  obtain ⟨o, st, hcon, ⟨salt, hs⟩, hread, hv⟩ | ⟨hcon, e, hread⟩ | ⟨hcon, hread, e, hv⟩ := h.inspect hc hon hi
  · have ho := hc.unsealed hs (r.ctx r.header d i (blockAt d (L.metaLba i))) hheader rfl
    simp only [hread, hv, selectWith, ho, hcon]
    rfl
  · rw [hread, hcon]
    rfl
  · simp only [hread, hv, hcon]
    rfl

/-- Phase B adopts the keys and the state of the first survivor and the largest offset of all. -/
theorem intoStore_of_holds (hc : LawfulCodec P K.codec) {r : JvckMetadataReader} (hon : On r.toPlacement L d)
    (hheader : r.header = K.header) (h : K.Holds P L d content) {o : UInt64} {st : VolumeState}
    (hfirst : (List.range L.count).findSome? content = some (o, st)) :
    ∃ m, IsLargest m (survivors content L.count) ∧
      r.intoStore P d K.vmk (selectWith K.codec K.vmk) =
        .ok { toPlacement := r.toPlacement
              vmk := K.vmk
              header := r.header
              secrets := K.secrets
              offset := m
              state := st.asU16
              codec := K.codec } := by
  have hsel : (r.selectLoop P d (selectWith K.codec K.vmk) 0 none r.lbas).toOption =
      some (K.codec, ⟨o, st, K.secrets⟩) := by
    have hlist : (List.range L.count).filterMap
        ((fun x => replicaSelect P r d (selectWith K.codec K.vmk) x.2 x.1) ∘
          fun i => (UInt64.ofNat (L.metaLba i), i)) =
        (List.range L.count).filterMap (Option.map (fun x => (K.codec, ⟨x.1, x.2, K.secrets⟩)) ∘ content) :=
      List.filterMap_congr fun i hi => replicaSelect_of_holds hc hon hheader h (List.mem_range.mp hi)
    rw [selectLoop_eq, zipIdx_lbas hon, List.findSome?_map, ← List.head?_filterMap, hlist, List.head?_filterMap,
      ← List.map_findSome?, hfirst]
    rfl
  have hne : survivors content L.count ≠ [] := by
    obtain ⟨i, hi, hci⟩ := List.exists_of_findSome?_eq_some hfirst
    have hmem : o ∈ survivors content L.count := by
      rw [survivors, List.mem_filterMap]
      exact ⟨i, hi, by rw [hci]; rfl⟩
    exact List.ne_nil_of_mem hmem
  have hstore (s : JvckMetadataStore) (hp : s.toPlacement = r.toPlacement) (hcodec : s.codec = K.codec)
      (hh : s.header = r.header) (hv : s.vmk = K.vmk) :=
    loadOffset_of_holds hc (s := s) (by rw [hp]; exact hon) hcodec (hh.trans hheader) hv h hne
  rw [JvckMetadataReader.intoStore]
  cases hloop : r.selectLoop P d (selectWith K.codec K.vmk) 0 none r.lbas with
  | error e =>
    rw [hloop] at hsel
    cases hsel
  | ok pair =>
    rw [hloop] at hsel
    obtain rfl := Option.some.inj hsel
    obtain ⟨m, hm, hlargest⟩ := hstore
      { toPlacement := r.toPlacement, vmk := K.vmk, header := r.header, secrets := K.secrets, offset := 0,
        state := st.asU16, codec := K.codec } rfl rfl rfl rfl
    refine ⟨m, hlargest, ?_⟩
    simp only [hm]
    rfl

/-! ## Phase A -/

/-- What Phase A makes of a CRC-valid block. -/
def openBlock (P : Primitives) (d : Device) (block : Fixed 512) : VckResult JvckMetadataReader := do
  let header ← JvckMetadata.parse P block.toList
  let options := JvckMetadataReader.optionsOf header
  let geometry ← computeGeometry d.sectorSize d.totalSectors options
  return { options, geometry, volumeSectors := d.totalSectors, header }

/-- The reader of a layout. -/
def readerOf (header : JvckHeader) (L : Layout) (d : Device) : JvckMetadataReader :=
  { options := JvckMetadataReader.optionsOf header
    geometry := L.geometry d.sectorSize
    volumeSectors := d.totalSectors
    header }

theorem readerOf_on {header : JvckHeader}
    (h : L.Of d.sectorSize d.totalSectors (JvckMetadataReader.optionsOf header)) :
    On (readerOf header L d).toPlacement L d := ⟨h, rfl, rfl⟩

theorem openLoop_cons (hs : 512 ≤ d.ss) {lba : UInt64} (hl : lba.toNat < d.sectors) (lbas : List UInt64) :
    JvckMetadataReader.openLoop P d (lba :: lbas) =
      if d.readFault lba.toNat then .error (.io "read_sectors failed")
      else if JvckMetadata.verifyCrc P (blockAt d lba.toNat).toList = .ok () then openBlock P d (blockAt d lba.toNat)
      else JvckMetadataReader.openLoop P d lbas := by
  rw [JvckMetadataReader.openLoop, readBlock_eq hs hl]
  cases d.readFault lba.toNat with
  | true => rfl
  | false =>
    cases hv : JvckMetadata.verifyCrc P (blockAt d lba.toNat).toList with
    | ok u =>
      simp only [Bool.false_eq_true, if_false, if_true]
      change (match JvckMetadata.verifyCrc P (blockAt d lba.toNat).toList with
        | .error _ => JvckMetadataReader.openLoop P d lbas
        | .ok () => openBlock P d (blockAt d lba.toNat)) = _
      rw [hv]
    | error e =>
      simp only [Bool.false_eq_true, if_false, reduceCtorEq]
      change (match JvckMetadata.verifyCrc P (blockAt d lba.toNat).toList with
        | .error _ => JvckMetadataReader.openLoop P d lbas
        | .ok () => openBlock P d (blockAt d lba.toNat)) = _
      rw [hv]

/-- Phase A as a decision on the last sector and sector 0. -/
theorem openReader_eq (hs : 512 ≤ d.ss) (hn : 0 < d.sectors) :
    JvckMetadataReader.openReader P d =
      if d.readFault (d.sectors - 1) then .error (.io "read_sectors failed")
      else if JvckMetadata.verifyCrc P (blockAt d (d.sectors - 1)).toList = .ok () then
        openBlock P d (blockAt d (d.sectors - 1))
      else if d.readFault 0 then .error (.io "read_sectors failed")
      else if JvckMetadata.verifyCrc P (blockAt d 0).toList = .ok () then openBlock P d (blockAt d 0)
      else .error (.notFound "no JVCK metadata present") := by
  have hone : (1 : UInt64) ≤ d.totalSectors := by
    rw [UInt64.le_iff_toNat_le]
    exact hn
  have hlast : (d.totalSectors - 1).toNat = d.sectors - 1 := UInt64.toNat_sub_of_le _ _ hone
  have hzero : d.totalSectors ≠ 0 := by
    intro h₀
    rw [Device.sectors, h₀] at hn
    cases hn
  have hsize : ¬ d.sectorSize.toNat < 512 := Nat.not_lt.mpr hs
  rw [JvckMetadataReader.openReader, if_neg hsize, if_neg hzero, openLoop_cons hs (by rw [hlast]; omega), hlast,
    openLoop_cons hs (show (0 : UInt64).toNat < d.sectors from hn)]
  rfl

/-- Phase A succeeds only if it could read the sectors it looked at. -/
theorem readable_of_openReader (hs : 512 ≤ d.ss) (hn : 0 < d.sectors) {reader : JvckMetadataReader}
    (h : JvckMetadataReader.openReader P d = .ok reader) :
    d.readFault (d.sectors - 1) = false ∧
      (JvckMetadata.verifyCrc P (blockAt d (d.sectors - 1)).toList ≠ .ok () → d.readFault 0 = false) := by
  rw [openReader_eq hs hn] at h
  cases hlast : d.readFault (d.sectors - 1) with
  | true =>
    rw [hlast] at h
    cases h
  | false =>
    refine ⟨rfl, fun hbad => ?_⟩
    rw [hlast, if_neg (by simp), if_neg hbad] at h
    cases hfirst : d.readFault 0 with
    | true =>
      rw [hfirst] at h
      cases h
    | false => rfl

/-- A CRC-valid block with a header that fits the device gives the reader of its layout. -/
theorem openBlock_eq {header : JvckHeader} {block : Fixed 512}
    (hp : JvckMetadata.parse P block.toList = .ok header)
    (hL : L.Of d.sectorSize d.totalSectors (JvckMetadataReader.optionsOf header)) :
    openBlock P d block = .ok (readerOf header L d) := by
  rw [openBlock, hp]
  change (computeGeometry d.sectorSize d.totalSectors (JvckMetadataReader.optionsOf header) >>= _) = _
  rw [hL.computeGeometry_eq]
  rfl

/-- Phase A, when the replica in the last sector is intact. -/
theorem openReader_of_last (hc : LawfulCodec P K.codec)
    (hL : L.Of d.sectorSize d.totalSectors (JvckMetadataReader.optionsOf K.header)) {o : UInt64} {st : VolumeState}
    (h : K.Intact d (d.sectors - 1) o st) :
    JvckMetadataReader.openReader P d = .ok (readerOf K.header L d) := by
  have hv := h.verifyCrc hc
  have hn : 0 < d.sectors := by
    have := L.fits
    have := hL.total
    change L.total = d.sectors at this
    omega
  obtain ⟨hf, salt, hs⟩ := h
  rw [openReader_eq hL.sectorSize hn, hf, if_neg (by simp), if_pos hv]
  exact openBlock_eq (hc.parse hs) hL

/-- Phase A, when the last sector is readable but not CRC-valid and the replica in sector 0 is intact. -/
theorem openReader_of_first (hc : LawfulCodec P K.codec)
    (hL : L.Of d.sectorSize d.totalSectors (JvckMetadataReader.optionsOf K.header)) {o : UInt64} {st : VolumeState}
    (hlast : d.readFault (d.sectors - 1) = false)
    (hbad : JvckMetadata.verifyCrc P (blockAt d (d.sectors - 1)).toList ≠ .ok ()) (h : K.Intact d 0 o st) :
    JvckMetadataReader.openReader P d = .ok (readerOf K.header L d) := by
  have hv := h.verifyCrc hc
  have hn : 0 < d.sectors := by
    have := L.fits
    have := hL.total
    change L.total = d.sectors at this
    omega
  obtain ⟨hf, salt, hs⟩ := h
  rw [openReader_eq hL.sectorSize hn, hlast, if_neg (by simp), if_neg hbad, hf, if_neg (by simp), if_pos hv]
  exact openBlock_eq (hc.parse hs) hL

/-- Opening is Phase A followed by Phase B with one codec. -/
theorem openWith_eq {reader : JvckMetadataReader} {codec : MetadataCodec} {vmk : Bytes}
    (h : JvckMetadataReader.openReader P d = .ok reader) :
    openWith P codec d vmk = reader.intoStore P d vmk (selectWith codec vmk) := by
  rw [openWith, h]
  rfl

end Recovery

end JvckReplicas
