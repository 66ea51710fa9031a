import VolumeCrypt.JvckReplicas
import VolumeCrypt.StepRun

/-!
# Whole runs of the metadata store

The invariant that every successful operation of `JvckMetadataStore` keeps: each
replica holds a seal of the store's current fields. An abstract volume records what
was last stored; the store and its device represent it after every run, and opening
the device again reads exactly that record back.
-/
namespace JvckRuns

open ByteString ByteMemory VckTypes SectorIo JvckLayout JvckStore JvckReplicas
open JvckMetadata (Primitives JvckHeader JvckSecrets)

def suiteOf (s : JvckMetadataStore) : Suite := ⟨s.codec, s.header, s.secrets, s.vmk⟩

/-- Every replica holds a seal of the store's fields, and the header describes the layout. -/
structure Synced (L : Layout) (s : JvckMetadataStore) (d : Device) : Prop where
  on : On s.toPlacement L d
  options : s.options = JvckMetadataReader.optionsOf s.header
  replicas : ∀ i, i < L.count → (suiteOf s).Seals s.offset (VolumeState.fromU16 s.state) (blockAt d (L.metaLba i))

theorem Synced.frame {S : Nat → Prop} {L : Layout} {s : JvckMetadataStore} {d d' : Device} (h : Synced L s d)
    (hf : Frame S d d') (hS : ∀ i, i < L.count → ¬ S (L.metaLba i)) : Synced L s d' := by
  refine ⟨h.on.frame hf, h.options, ?_⟩
  intro i hi
  rw [blockAt_frame hf (hS i hi)]
  exact h.replicas i hi

/-- A completed `write_all_replicas` brings every replica in line and touches nothing else. -/
theorem writeAllReplicas_spec {L : Layout} {s : JvckMetadataStore} {d d' : Device} {r : VckResult Unit}
    (hon : On s.toPlacement L d) (hw : s.writeAllReplicas d = (r, d')) :
    Frame L.IsMeta d d' ∧ (s.options = JvckMetadataReader.optionsOf s.header → r = .ok () → Synced L s d') := by
  obtain ⟨hframe, hblocks⟩ := writeReplicas_spec hon hw
  rw [hon.length_lbas] at hframe hblocks
  constructor
  · apply hframe.mono
    rintro i ⟨j, _, hj, rfl⟩
    exact ⟨j, hj, rfl⟩
  · intro hopt hr
    obtain ⟨salt, block, hseal, hall⟩ := hblocks hr
    refine ⟨hon.frame hframe, hopt, ?_⟩
    intro i hi
    rw [hall i hi hi]
    exact ⟨salt, hseal⟩

theorem toUInt32_toUInt8 {n : UInt32} (h : n.toNat ≤ 255) : n.toUInt8.toUInt32 = n := by
  apply UInt32.toNat_inj.mp
  rw [UInt8.toNat_toUInt32, UInt32.toNat_toUInt8]
  exact Nat.mod_eq_of_lt (by omega)

/-- What a successful `create` leaves. -/
theorem create_spec {d d' : Device} {vmk : Bytes} {options : JvckMetadataOptions} {k₁ k₂ : Fixed 32} {vid : Fixed 16}
    {codec : MetadataCodec} {s : JvckMetadataStore} (hh : options.useHeader.toNat ≤ 255)
    (hf : options.useFooter.toNat ≤ 255)
    (hc : JvckMetadataStore.create d vmk options k₁ k₂ vid codec = (.ok s, d')) :
    ∃ L : Layout, L.Of d.sectorSize d.totalSectors options ∧ Synced L s d' ∧ Frame L.IsMeta d d' ∧
      s.options = options ∧ s.geometry = L.geometry d.sectorSize ∧ suiteOf s = ⟨codec, s.header, ⟨k₁, k₂⟩, vmk⟩ ∧
      s.header.volumeId = vid ∧ s.header.vendorReserved = List.Vector.replicate 192 0 ∧ s.offset = 0 ∧
      s.state = VolumeState.encrypt.asU16 := by
  rw [JvckMetadataStore.create] at hc
  cases hv : options.validate with
  | error e =>
    rw [hv] at hc
    cases (Prod.mk.inj hc).1
  | ok u =>
    cases hg : computeGeometry d.sectorSize d.totalSectors options with
    | error e =>
      rw [hv, hg] at hc
      cases (Prod.mk.inj hc).1
    | ok g =>
      obtain ⟨L, hL, rfl⟩ := (computeGeometry_ok_iff (by omega)).mp hg
      rw [hv, hg] at hc
      simp only at hc
      generalize hs : JvckMetadataStore.mk _ _ _ _ _ _ _ = s₀ at hc
      have hon : On s₀.toPlacement L d := by
        rw [← hs]
        exact ⟨hL, rfl, rfl⟩
      have hopt : s₀.options = JvckMetadataReader.optionsOf s₀.header := by
        rw [← hs, JvckMetadataReader.optionsOf]
        simp only [toUInt32_toUInt8 hh, toUInt32_toUInt8 hf]
      generalize hw : s₀.writeAllReplicas d = w at hc
      obtain ⟨r, d₁⟩ := w
      obtain ⟨hframe, hsync⟩ := writeAllReplicas_spec hon hw
      cases r with
      | error e => cases (Prod.mk.inj hc).1
      | ok u =>
        obtain ⟨h₁, rfl⟩ := Prod.mk.inj hc
        obtain rfl := Except.ok.inj h₁
        refine ⟨L, hL, hsync hopt rfl, hframe, ?_⟩
        rw [← hs]
        exact ⟨rfl, rfl, rfl, rfl, rfl, rfl, rfl⟩

/-- On a healthy device the default suite re-seals every replica. -/
theorem writeReplicas_cbc {P : Primitives} {L : Layout} {s : JvckMetadataStore} {d : Device}
    (hon : On s.toPlacement L d) (hd : Healthy d) (hcodec : s.codec = jvckCbcCodec P) (k : Nat) :
    s.writeReplicas k d = (.ok (), (s.writeReplicas k d).2) := by
  have hok := writeReplicas_ok hon hd (fun salt => by rw [JvckMetadataStore.sealBlock, hcodec]; exact ⟨_, rfl⟩) k
  exact Prod.ext hok rfl

/-- A store of the default suite that writes its replicas to a healthy device. -/
theorem writeAllReplicas_fresh {P : Primitives} {L : Layout} {s : JvckMetadataStore} {d : Device} (hd : Healthy d)
    (hon : On s.toPlacement L d) (hcodec : s.codec = jvckCbcCodec P)
    (hopt : s.options = JvckMetadataReader.optionsOf s.header) :
    Frame L.IsMeta d (s.writeAllReplicas d).2 ∧ Synced L s (s.writeAllReplicas d).2 ∧
      Healthy (s.writeAllReplicas d).2 := by
  have hw := writeReplicas_cbc hon hd hcodec s.lbas.length
  obtain ⟨hframe, hsync⟩ := writeAllReplicas_spec hon hw
  exact ⟨hframe, hsync hopt rfl, hd.frame hframe⟩

/-- On a healthy device `create` accepts every valid layout. -/
theorem create_cbc {P : Primitives} {L : Layout} {d : Device} {options : JvckMetadataOptions} (vmk : Bytes)
    (k₁ k₂ : Fixed 32) (vid : Fixed 16) (hd : Healthy d) (hv : options.validate = .ok ())
    (hL : L.Of d.sectorSize d.totalSectors options) :
    ∃ s₀ d', JvckMetadataStore.create d vmk options k₁ k₂ vid (jvckCbcCodec P) = (.ok s₀, d') ∧
      s₀.codec = jvckCbcCodec P := by
  rw [JvckMetadataStore.create, hv, hL.computeGeometry_eq]
  simp only
  generalize hs : JvckMetadataStore.mk _ _ _ _ _ _ _ = s₀
  have hon : On s₀.toPlacement L d := by
    rw [← hs]
    exact ⟨hL, rfl, rfl⟩
  have hcodec : s₀.codec = jvckCbcCodec P := by rw [← hs]
  rw [JvckMetadataStore.writeAllReplicas, writeReplicas_cbc hon hd hcodec]
  exact ⟨s₀, _, rfl, hcodec⟩

/-! ## Vendor ranges -/

theorem toNat_vendorCount {p : Placement} {L : Layout} {d : Device} (h : On p L d) :
    p.vendorDataSectorCount.toNat = L.replica - 1 := by
  have hrs : p.rs.toNat = L.replica := by
    rw [Placement.rs, h.sectorSize]
    exact h.layout.toNat_rs
  have hpos := L.replica_pos
  have hle : (1 : UInt64) ≤ p.rs := by
    rw [UInt64.le_iff_toNat_le, hrs]
    exact hpos
  rw [Placement.vendorDataSectorCount, saturatingSub, if_neg (UInt64.not_lt.mpr hle), UInt64.toNat_sub_of_le _ _ hle,
    hrs]
  rfl

theorem vendorBase_lt {L : Layout} {i r : Nat} (hi : i < L.count) (hr : r < L.replica - 1) :
    L.vendorBase i + r < L.total :=
  L.region_lt_total hi (L.vendor_mem_region hr).2.1

theorem checkedAdd_eq_some {a b c : UInt64} : checkedAdd a b = some c ↔ c.toNat = a.toNat + b.toNat := by
  rw [checkedAdd]
  split
  · rename_i h
    rw [Option.some_inj, ← UInt64.toNat_inj, UInt64.toNat_add, Nat.mod_eq_of_lt h]
    exact eq_comm
  · have := c.toNat_lt
    simp
    omega

/-- The shared checks pass exactly the non-empty whole-sector ranges that end by `count`. -/
theorem vendorLba_ok_iff {sectorSize : UInt32} (hss : 0 < sectorSize.toNat) {base : Option UInt64}
    {count rel : UInt64} {len : Nat} (hlen : len < 2 ^ 64) {lba : UInt64} :
    vendorLba sectorSize base count rel len = .ok lba ↔
      ∃ b n, base = some b ∧ 0 < n ∧ len = n * sectorSize.toNat ∧ rel.toNat + n ≤ count.toNat ∧ lba = b + rel := by
  unfold vendorLba
  by_cases hbuf : sectorSize.toNat = 0 ∨ len = 0 ∨ len % sectorSize.toNat ≠ 0
  · simp only [hbuf, if_true, reduceCtorEq, false_iff]
    rintro ⟨b, n, _, hn, rfl, _⟩
    rw [Nat.mul_mod_left] at hbuf
    have := Nat.mul_pos hn hss
    omega
  · simp only [hbuf, if_false]
    cases base with
    | none => simp
    | some b =>
      have hdvd : len = len / sectorSize.toNat * sectorSize.toNat :=
        (Nat.div_mul_cancel (Nat.dvd_of_mod_eq_zero (by omega))).symm
      have hpos : 0 < len / sectorSize.toNat := Nat.div_pos (Nat.le_of_dvd (by omega)
        (Nat.dvd_of_mod_eq_zero (by omega))) hss
      have hof : (UInt64.ofNat (len / sectorSize.toNat)).toNat = len / sectorSize.toNat := by
        rw [UInt64.toNat_ofNat']
        exact Nat.mod_eq_of_lt ((Nat.div_le_self _ _).trans_lt hlen)
      have huniq {n : Nat} (hn : len = n * sectorSize.toNat) : len / sectorSize.toNat = n := by
        rw [hn, Nat.mul_div_cancel _ hss]
      cases hadd : checkedAdd rel (UInt64.ofNat (len / sectorSize.toNat)) with
      | none =>
        simp only [reduceCtorEq, false_iff]
        rintro ⟨b', n, _, _, hn, hle, _⟩
        have hlt := count.toNat_lt
        have : checkedAdd rel (UInt64.ofNat (len / sectorSize.toNat)) =
            some (rel + UInt64.ofNat (len / sectorSize.toNat)) := by
          rw [checkedAdd, hof, if_pos (by rw [huniq hn]; omega)]
        rw [hadd] at this
        cases this
      | some stop =>
        have hstop := checkedAdd_eq_some.mp hadd
        rw [hof] at hstop
        simp only [gt_iff_lt, UInt64.lt_iff_toNat_lt, hstop]
        by_cases hend : count.toNat < rel.toNat + len / sectorSize.toNat
        · simp only [hend, if_true, reduceCtorEq, false_iff]
          rintro ⟨b', n, _, _, hn, hle, _⟩
          rw [huniq hn] at hend
          omega
        · simp only [hend, if_false, Except.ok.injEq]
          constructor
          · intro hl
            exact ⟨b, _, rfl, hpos, hdvd, by omega, hl.symm⟩
          · rintro ⟨b', n, hb, _, _, _, rfl⟩
            rw [Option.some_inj.mp hb]

theorem vendorBase_eq {p : Placement} {L : Layout} {d : Device} (h : On p L d) (i : Nat) :
    p.vendorBase i = if i < L.count then some (UInt64.ofNat (L.vendorBase i)) else none := by
  rw [Placement.vendorBase, Placement.rs, h.sectorSize, h.volumeSectors]
  exact h.layout.vendorDataBaseLbaAt_eq i

/-- A context reads through the checks of its replica. -/
theorem ctx_readVendorData {p : Placement} {L : Layout} {d : Device} (h : On p L d) {i : Nat} (hi : i < L.count)
    (header : JvckHeader) (d' : Device) (block : Fixed 512) (rel : UInt64) (len : Nat) :
    (p.ctx header d' i block).readVendorData rel len =
      (do let lba ← p.vendorDataLba i rel len
          readSectors d' lba len) := by
  have hbase : p.vendorBase i = some (UInt64.ofNat (L.vendorBase i)) := by rw [vendorBase_eq h, if_pos hi]
  have hlba : vendorLba p.geometry.sectorSize (some ((p.vendorBase i).getD 0)) (saturatingSub p.rs 1) rel len =
      p.vendorDataLba i rel len := by
    rw [Placement.vendorDataLba, hbase]
    rfl
  rw [← hlba]
  rfl

/-- The first sector of a vendor range, as the code computes it. -/
theorem toNat_vendorSector {p : Placement} {L : Layout} {d : Device} (h : On p L d) {i r : Nat} (hi : i < L.count)
    (hr : r < L.replica - 1) : (UInt64.ofNat (L.vendorBase i + r)).toNat = L.vendorBase i + r := by
  rw [UInt64.toNat_ofNat']
  exact Nat.mod_eq_of_lt ((vendorBase_lt hi hr).trans h.layout.total_lt)

/-- Exactly the non-empty whole-sector ranges inside a vendor area pass the checks. -/
theorem vendorDataLba_ok_iff {p : Placement} {L : Layout} {d : Device} (h : On p L d) {i : Nat} {rel : UInt64}
    {len : Nat} (hlen : len < 2 ^ 64) {lba : UInt64} :
    p.vendorDataLba i rel len = .ok lba ↔
      ∃ n, 0 < n ∧ len = n * d.ss ∧ i < L.count ∧ rel.toNat + n ≤ L.replica - 1 ∧
        lba = UInt64.ofNat (L.vendorBase i + rel.toNat) := by
  have hss : 0 < d.sectorSize.toNat := Nat.lt_of_lt_of_le (by decide) h.ss
  have hsum : UInt64.ofNat (L.vendorBase i + rel.toNat) = UInt64.ofNat (L.vendorBase i) + rel := by
    rw [UInt64.ofNat_add, UInt64.ofNat_toNat]
  rw [Placement.vendorDataLba, h.sectorSize, vendorLba_ok_iff hss hlen, vendorBase_eq h, toNat_vendorCount h,
    hsum]
  by_cases hi : i < L.count
  · simp only [hi, if_true, true_and]
    constructor
    · rintro ⟨b, n, hb, hn, hl, hle, rfl⟩
      exact ⟨n, hn, hl, hle, by rw [Option.some_inj.mp hb]⟩
    · rintro ⟨n, hn, hl, hle, rfl⟩
      exact ⟨_, n, rfl, hn, hl, hle, rfl⟩
  · simp [hi]

/-- The vendor sectors of a layout. -/
def IsVendorSector (L : Layout) (lba : Nat) : Prop := ∃ i r, i < L.count ∧ r < L.replica - 1 ∧ lba = L.vendorBase i + r

/-- One vendor write: the sectors of its range, and nothing else. -/
theorem writeVendorData_range {s : JvckMetadataStore} {L : Layout} {d d' : Device} (h : On s.toPlacement L d) {i : Nat}
    {rel : UInt64} {buf : Bytes} (hw : s.writeVendorData d i rel buf = (.ok (), d')) :
    ∃ n, 0 < n ∧ buf.length = n * d.ss ∧ i < L.count ∧ rel.toNat + n ≤ L.replica - 1 ∧
      Frame (fun l => L.vendorBase i + rel.toNat ≤ l ∧ l < L.vendorBase i + rel.toNat + n) d d' ∧
      ∀ l, d'.sector l =
        if L.vendorBase i + rel.toNat ≤ l ∧ l < L.vendorBase i + rel.toNat + n then
          slice buf ((l - (L.vendorBase i + rel.toNat)) * d.ss) d.ss
        else d.sector l := by
  rw [JvckMetadataStore.writeVendorData] at hw
  cases hl : s.vendorDataLba i rel buf.length with
  | error e =>
    rw [hl] at hw
    cases (Prod.mk.inj hw).1
  | ok lba =>
    rw [hl] at hw
    simp only at hw
    obtain ⟨n, hn, hbl, hi, hle, rfl⟩ := (vendorDataLba_ok_iff h (length_lt_of_write hw)).mp hl
    have hnat := toNat_vendorSector h hi (show rel.toNat < L.replica - 1 by omega)
    have hframe := writeSectors_frame d (UInt64.ofNat (L.vendorBase i + rel.toNat)) hbl
    have hsec := sector_writeSectors hbl hw
    rw [hw, hnat] at hframe
    rw [hnat] at hsec
    exact ⟨n, hn, hbl, hi, hle, hframe, hsec⟩

/-- One vendor write, by replica and vendor sector. -/
theorem writeVendorData_spec {s : JvckMetadataStore} {L : Layout} {d d' : Device} (h : On s.toPlacement L d) {i : Nat}
    {rel : UInt64} {buf : Bytes} (hw : s.writeVendorData d i rel buf = (.ok (), d')) :
    Frame (IsVendorSector L) d d' ∧
      ∀ j r, j < L.count → r < L.replica - 1 → d'.sector (L.vendorBase j + r) =
        if j = i ∧ rel.toNat ≤ r ∧ r < rel.toNat + buf.length / d.ss then
          slice buf ((r - rel.toNat) * d.ss) d.ss
        else d.sector (L.vendorBase j + r) := by
  obtain ⟨n, hn, hbl, hi, hle, hframe, hsec⟩ := writeVendorData_range h hw
  have hdiv : buf.length / d.ss = n := by rw [hbl, Nat.mul_div_cancel _ (by have := h.ss; omega)]
  constructor
  · apply hframe.mono
    rintro l ⟨h₁, h₂⟩
    exact ⟨i, l - L.vendorBase i, hi, by omega, by omega⟩
  · intro j r hj hr
    rw [hsec, hdiv]
    by_cases hji : j = i
    · subst hji
      by_cases hrange : rel.toNat ≤ r ∧ r < rel.toNat + n
      · rw [if_pos (by omega), if_pos ⟨rfl, hrange⟩]
        congr 2
        omega
      · rw [if_neg (by omega), if_neg (by omega)]
    · rw [if_neg, if_neg (by omega)]
      rintro ⟨h₁, h₂⟩
      obtain ⟨q, hq⟩ : ∃ q, L.vendorBase j + r = L.vendorBase i + q ∧ q < L.replica - 1 :=
        ⟨L.vendorBase j + r - L.vendorBase i, by omega, by omega⟩
      exact hji (L.vendor_injective hr hq.2 hq.1).1

/-- The loop over all replicas writes the same range of each. -/
theorem writeVendorLoop_spec {s : JvckMetadataStore} {L : Layout} {d d' : Device} (h : On s.toPlacement L d)
    {rel : UInt64} {buf : Bytes} {n idx : Nat} (hw : s.writeVendorLoop rel buf n idx d = (.ok (), d')) :
    Frame (IsVendorSector L) d d' ∧
      ∀ j r, j < L.count → r < L.replica - 1 → d'.sector (L.vendorBase j + r) =
        if (idx ≤ j ∧ j < idx + n) ∧ rel.toNat ≤ r ∧ r < rel.toNat + buf.length / d.ss then
          slice buf ((r - rel.toNat) * d.ss) d.ss
        else d.sector (L.vendorBase j + r) := by
  induction n generalizing idx d with
  | zero =>
    obtain ⟨_, rfl⟩ := Prod.mk.inj hw
    refine ⟨.refl _ _, ?_⟩
    intro j r _ _
    rw [if_neg (by omega)]
  | succ n ih =>
    rw [JvckMetadataStore.writeVendorLoop] at hw
    generalize hone : s.writeVendorData d idx rel buf = w at hw
    obtain ⟨r₁, d₁⟩ := w
    cases r₁ with
    | error e => cases (Prod.mk.inj hw).1
    | ok u =>
      obtain ⟨hf₁, hs₁⟩ := writeVendorData_spec h hone
      obtain ⟨hf₂, hs₂⟩ := ih (h.frame hf₁) hw
      refine ⟨hf₁.trans hf₂, ?_⟩
      intro j r hj hr
      rw [hs₂ j r hj hr, hs₁ j r hj hr, hf₁.ss]
      by_cases hrange : rel.toNat ≤ r ∧ r < rel.toNat + buf.length / d.ss
      · by_cases hji : j = idx
        · rw [if_pos (c := j = idx ∧ _) ⟨hji, hrange⟩, ite_self, if_pos ⟨by omega, hrange⟩]
        · by_cases hin : idx + 1 ≤ j ∧ j < idx + 1 + n
          · rw [if_pos ⟨hin, hrange⟩, if_pos ⟨by omega, hrange⟩]
          · rw [if_neg (fun hc => hin hc.1), if_neg (fun hc => hji hc.1), if_neg (by omega)]
      · rw [if_neg (fun hc => hrange hc.2), if_neg (fun hc => hrange hc.2), if_neg (fun hc => hrange hc.2)]

/-! ## Operations and the record they keep -/

/-- What happens to a mounted volume between two opens. -/
inductive StoreOp where
  | store (offset : EncryptedOffset)
  | storeState (state : VolumeState)
  | setVendorReserved (vendorReserved : Fixed 192)
  | writeVendorData (replicaIndex : Nat) (relSector : UInt64) (buf : Bytes)
  | writeVendorDataAll (relSector : UInt64) (buf : Bytes)
  /-- A write of whole sectors inside the data region. -/
  | writeData (lba : UInt64) (buf : Bytes)

/-- Whole sectors that lie inside the data region. -/
def InRegion (g : Geometry) (lba : UInt64) (len : Nat) : Prop :=
  len % g.sectorSize.toNat = 0 ∧ g.offsetSector.toNat ≤ lba.toNat ∧
    lba.toNat + len / g.sectorSize.toNat ≤ g.offsetSector.toNat + g.dataSectors.toNat

instance (g : Geometry) (lba : UInt64) (len : Nat) : Decidable (InRegion g lba len) :=
  inferInstanceAs (Decidable (_ ∧ _ ∧ _))

def StoreOp.apply (s : JvckMetadataStore) (d : Device) :
    StoreOp → VckResult Unit × JvckMetadataStore × Device
  | .store offset => s.store d offset
  | .storeState state => s.storeState d state
  | .setVendorReserved vendorReserved => s.setVendorReserved d vendorReserved
  | .writeVendorData i rel buf =>
    let r := s.writeVendorData d i rel buf
    (r.1, s, r.2)
  | .writeVendorDataAll rel buf =>
    let r := s.writeVendorDataAll d rel buf
    (r.1, s, r.2)
  | .writeData lba buf =>
    if InRegion s.geometry lba buf.length then
      let r := writeSectors d lba buf
      (r.1, s, r.2)
    else (.error (.invalidData "not a data region write"), s, d)

/-- A successful operation; a failed one has no successor. -/
def step (x : JvckMetadataStore × Device) (op : StoreOp) : Option (JvckMetadataStore × Device) :=
  match op.apply x.1 x.2 with
  | (.ok (), s, d) => some (s, d)
  | (.error _, _, _) => none

theorem step_eq_some {s s' : JvckMetadataStore} {d d' : Device} {op : StoreOp} :
    step (s, d) op = some (s', d') ↔ op.apply s d = (.ok (), s', d') := by
  simp only [step]
  generalize op.apply s d = w
  obtain ⟨r, t, e⟩ := w
  cases r with
  | error e => simp
  | ok u => simp

/-- What a user of the store expects to find again. -/
structure VolumeRecord where
  offset : UInt64
  state : VolumeState
  vendorReserved : Fixed 192
  vendor : Nat → Nat → Bytes

/-- The vendor sectors of the chosen replicas after a write at `rel`. -/
def putVendor (ss : Nat) (vendor : Nat → Nat → Bytes) (chosen : Nat → Prop) [DecidablePred chosen] (rel : Nat)
    (buf : Bytes) : Nat → Nat → Bytes :=
  fun i r => if chosen i ∧ rel ≤ r ∧ r < rel + buf.length / ss then slice buf ((r - rel) * ss) ss else vendor i r

def VolumeRecord.apply (ss : Nat) (v : VolumeRecord) : StoreOp → VolumeRecord
  | .store offset => { v with offset := offset.sector }
  | .storeState state => { v with state }
  | .setVendorReserved vendorReserved => { v with vendorReserved }
  | .writeVendorData i rel buf => { v with vendor := putVendor ss v.vendor (· = i) rel.toNat buf }
  | .writeVendorDataAll rel buf => { v with vendor := putVendor ss v.vendor (fun _ => True) rel.toNat buf }
  | .writeData _ _ => v

/-- The store and device carry the record, under the identity that `create` gave the volume. -/
structure Represents (L : Layout) (s₀ : JvckMetadataStore) (ss : Nat) (x : JvckMetadataStore × Device)
    (v : VolumeRecord) : Prop where
  synced : Synced L x.1 x.2
  sectorSize : x.2.ss = ss
  placement : x.1.toPlacement = s₀.toPlacement
  suite : suiteOf x.1 = ⟨s₀.codec, { s₀.header with vendorReserved := v.vendorReserved }, s₀.secrets, s₀.vmk⟩
  offset : x.1.offset = v.offset
  state : VolumeState.fromU16 x.1.state = v.state
  vendor : ∀ i r, i < L.count → r < L.replica - 1 → x.2.sector (L.vendorBase i + r) = v.vendor i r

theorem isMeta_not_vendor {L : Layout} {i r : Nat} (hr : r < L.replica - 1) : ¬ L.IsMeta (L.vendorBase i + r) := by
  rintro ⟨j, _, he⟩
  exact L.vendor_not_meta j hr he

theorem vendorSector_not_meta {L : Layout} (j : Nat) : ¬ IsVendorSector L (L.metaLba j) := by
  rintro ⟨i, r, _, hr, he⟩
  exact L.vendor_not_meta j hr he.symm

section Steps

variable {L : Layout} {s₀ : JvckMetadataStore} {ss : Nat} {s s' : JvckMetadataStore} {d d' : Device}
  {v v' : VolumeRecord}

/-- Re-sealing every replica with new fields. -/
theorem Represents.reseal (h : Represents L s₀ ss (s, d) v) (hw : s'.writeAllReplicas d = (.ok (), d'))
    (hp : s'.toPlacement = s.toPlacement) (hopt : s'.options = JvckMetadataReader.optionsOf s'.header)
    (hsuite : suiteOf s' = ⟨s₀.codec, { s₀.header with vendorReserved := v'.vendorReserved }, s₀.secrets, s₀.vmk⟩)
    (ho : s'.offset = v'.offset) (hst : VolumeState.fromU16 s'.state = v'.state) (hv : v'.vendor = v.vendor) :
    Represents L s₀ ss (s', d') v' := by
  have hon : On s'.toPlacement L d := by
    rw [hp]
    exact h.synced.on
  obtain ⟨hframe, hsync⟩ := writeAllReplicas_spec hon hw
  refine ⟨hsync hopt rfl, hframe.ss.trans h.sectorSize, hp.trans h.placement, hsuite, ho, hst, ?_⟩
  intro i r hi hr
  rw [hv, ← h.vendor i r hi hr]
  exact hframe.sector_eq (isMeta_not_vendor hr)

/-- Writing vendor sectors. -/
theorem Represents.rewriteVendor (h : Represents L s₀ ss (s, d) v) (hframe : Frame (IsVendorSector L) d d')
    {vendor : Nat → Nat → Bytes}
    (hv : ∀ i r, i < L.count → r < L.replica - 1 → d'.sector (L.vendorBase i + r) = vendor i r) :
    Represents L s₀ ss (s, d') { v with vendor } :=
  ⟨h.synced.frame hframe fun j _ => vendorSector_not_meta j, hframe.ss.trans h.sectorSize, h.placement, h.suite,
    h.offset, h.state, hv⟩

theorem replicaCount_eq {p : Placement} (hon : On p L d) : p.replicaCount = L.count := by
  rw [Placement.replicaCount, UInt32.toNat_add, Nat.mod_eq_of_lt hon.layout.counts, Layout.count, hon.layout.headers,
    hon.layout.footers]

theorem toNat_offsetSector {p : Placement} (hon : On p L d) : p.geometry.offsetSector.toNat = L.dataStart := by
  have htot := hon.layout.total_lt
  have hcons := L.consumed_lt
  rw [hon.geometry, Layout.geometry, UInt64.toNat_ofNat']
  exact Nat.mod_eq_of_lt (by omega)

theorem toNat_dataSectors {p : Placement} (hon : On p L d) : p.geometry.dataSectors.toNat = L.dataCount := by
  have htot := hon.layout.total_lt
  have hd := L.dataEnd_eq
  have he := L.footerEnd_eq
  rw [hon.geometry, Layout.geometry, UInt64.toNat_ofNat']
  exact Nat.mod_eq_of_lt (by omega)

/-- The data region of the geometry is the data region of the layout. -/
theorem InRegion.inData {p : Placement} (hon : On p L d) {lba : UInt64} {len : Nat}
    (h : InRegion p.geometry lba len) : ∃ n, len = n * d.ss ∧ ∀ i, i < n → L.InData (lba.toNat + i) := by
  obtain ⟨h₁, h₂, h₃⟩ := h
  rw [hon.sectorSize] at h₁ h₃
  rw [toNat_offsetSector hon] at h₂ h₃
  rw [toNat_dataSectors hon] at h₃
  refine ⟨len / d.ss, (Nat.div_mul_cancel (Nat.dvd_of_mod_eq_zero h₁)).symm, ?_⟩
  intro i hi
  change lba.toNat + len / d.ss ≤ _ at h₃
  exact ⟨by omega, by omega⟩

/-- Every successful operation does to the store and device what it does to the record. -/
theorem step_represents {x x' : JvckMetadataStore × Device} {op : StoreOp} (h : Represents L s₀ ss x v)
    (hs : step x op = some x') : Represents L s₀ ss x' (v.apply ss op) := by
  obtain ⟨s, d⟩ := x
  obtain ⟨s', d'⟩ := x'
  have hok : op.apply s d = (.ok (), s', d') := step_eq_some.mp hs
  have hsuite := h.suite
  have hopt := h.synced.options
  cases op with
  | store offset =>
    obtain ⟨hw, rfl, rfl⟩ := Prod.mk.inj hok |>.imp_right Prod.mk.inj
    exact h.reseal (Prod.ext hw rfl) rfl hopt hsuite rfl h.state rfl
  | storeState state =>
    obtain ⟨hw, rfl, rfl⟩ := Prod.mk.inj hok |>.imp_right Prod.mk.inj
    exact h.reseal (Prod.ext hw rfl) rfl hopt hsuite h.offset (VolumeState.fromU16_asU16 state) rfl
  | setVendorReserved vendorReserved =>
    obtain ⟨hw, rfl, rfl⟩ := Prod.mk.inj hok |>.imp_right Prod.mk.inj
    refine h.reseal (Prod.ext hw rfl) rfl hopt ?_ h.offset h.state rfl
    obtain ⟨h₁, h₂, h₃, h₄⟩ := Suite.mk.inj hsuite
    change Suite.mk s.codec { s.header with vendorReserved } s.secrets s.vmk = _
    rw [h₁, h₂, h₃, h₄]
    rfl
  | writeVendorData i rel buf =>
    obtain ⟨hw, rfl, rfl⟩ := Prod.mk.inj hok |>.imp_right Prod.mk.inj
    obtain ⟨hframe, hsec⟩ := writeVendorData_spec h.synced.on (Prod.ext hw rfl)
    refine h.rewriteVendor hframe ?_
    intro j r hj hr
    rw [hsec j r hj hr, h.vendor j r hj hr, putVendor, ← h.sectorSize]
  | writeVendorDataAll rel buf =>
    obtain ⟨hw, rfl, rfl⟩ := Prod.mk.inj hok |>.imp_right Prod.mk.inj
    simp only [JvckMetadataStore.writeVendorDataAll] at hw ⊢
    cases hl : s.vendorDataLba 0 rel buf.length with
    | error e =>
      rw [hl] at hw
      cases hw
    | ok lba =>
      rw [hl] at hw
      simp only at hw ⊢
      obtain ⟨hframe, hsec⟩ := writeVendorLoop_spec h.synced.on (Prod.ext hw rfl)
      refine h.rewriteVendor hframe ?_
      intro j r hj hr
      rw [hsec j r hj hr, h.vendor j r hj hr, putVendor, ← h.sectorSize, replicaCount_eq h.synced.on]
      simp [hj]
  | writeData lba buf =>
    rw [StoreOp.apply] at hok
    by_cases hin : InRegion s.geometry lba buf.length
    · rw [if_pos hin] at hok
      obtain ⟨hw, rfl, rfl⟩ := Prod.mk.inj hok |>.imp_right Prod.mk.inj
      obtain ⟨n, hn, hdata⟩ := hin.inData h.synced.on
      have hframe := (writeSectors_frame d lba hn).mono (T := L.InData) (by
        rintro i ⟨h₁, h₂⟩
        have := hdata (i - lba.toNat) (by omega)
        rwa [Nat.add_sub_of_le h₁] at this)
      refine ⟨h.synced.frame hframe fun j hj => L.metaLba_not_data hj, hframe.ss.trans h.sectorSize, h.placement,
        h.suite, h.offset, h.state, ?_⟩
      intro i r hi hr
      rw [hframe.sector_eq (L.vendor_not_data hi hr)]
      exact h.vendor i r hi hr
    · rw [if_neg hin] at hok
      cases (Prod.mk.inj hok).1

end Steps

/-! ## Opening again -/

section Reopen

variable {P : Primitives} {L : Layout} {s : JvckMetadataStore} {d : Device}

theorem Synced.readerPlacement (h : Synced L s d) :
    (readerOf s.header L d).toPlacement = s.toPlacement := by
  obtain ⟨⟨h₁, h₂, h₃⟩, h₄, _⟩ := h
  rw [readerOf, ← h₄, ← h₂, ← h₃]

theorem Synced.layoutOf (h : Synced L s d) :
    L.Of d.sectorSize d.totalSectors (JvckMetadataReader.optionsOf s.header) := by
  rw [← h.options]
  exact h.on.layout

/-- All replicas agree on the offset and state of the store. -/
theorem Synced.holds (h : Synced L s d) (hread : ∀ i, i < L.count → d.readFault (L.metaLba i) = false) :
    (suiteOf s).Holds P L d fun _ => some (s.offset, VolumeState.fromU16 s.state) :=
  fun i hi => ⟨hread i hi, h.replicas i hi⟩

/-- Where all replicas agree on an offset it is the largest. -/
theorem isLargest_same {o m : UInt64} {st : VolumeState} {n : Nat}
    (hm : IsLargest m (survivors (fun _ => some (o, st)) n)) : m = o := by
  have hmem := hm.1
  rw [survivors, List.mem_filterMap] at hmem
  obtain ⟨i, _, hi⟩ := hmem
  exact (Option.some.inj hi).symm

/-- The state as it is read back from a replica. -/
theorem Synced.normalised (h : Synced L s d) :
    Synced L { s with state := (VolumeState.fromU16 s.state).asU16 } d := by
  refine ⟨h.on, h.options, ?_⟩
  rw [VolumeState.fromU16_asU16]
  exact h.replicas

/-- Phase B on a synced volume gives the store back. -/
theorem Synced.intoStore (h : Synced L s d) (hc : LawfulCodec P s.codec) (hcount : 0 < L.count)
    (hread : ∀ i, i < L.count → d.readFault (L.metaLba i) = false) :
    (readerOf s.header L d).intoStore P d s.vmk (selectWith s.codec s.vmk) =
      .ok { s with state := (VolumeState.fromU16 s.state).asU16 } := by
  have hfirst : (List.range L.count).findSome? (fun _ => some (s.offset, VolumeState.fromU16 s.state)) =
      some (s.offset, VolumeState.fromU16 s.state) := by
    obtain ⟨n, hn⟩ : ∃ n, L.count = n + 1 := ⟨L.count - 1, by omega⟩
    rw [hn, List.range_succ_eq_map, List.findSome?_cons]
  obtain ⟨m, hm, hstore⟩ := intoStore_of_holds (K := suiteOf s) hc (readerOf_on h.layoutOf) rfl (h.holds hread) hfirst
  refine hstore.trans ?_
  rw [isLargest_same hm, h.readerPlacement]
  rfl

/-- `load_offset` on a synced volume. -/
theorem Synced.loadOffset (h : Synced L s d) (hc : LawfulCodec P s.codec) (hcount : 0 < L.count)
    (hread : ∀ i, i < L.count → d.readFault (L.metaLba i) = false) : s.loadOffset P d = .ok s.offset := by
  have hsome : survivors (fun _ => some (s.offset, VolumeState.fromU16 s.state)) L.count ≠ [] := by
    rw [survivors]
    intro h₀
    have := List.filterMap_eq_nil_iff.mp h₀ 0 (List.mem_range.mpr hcount)
    cases this
  obtain ⟨m, hm, hlargest⟩ := loadOffset_of_holds (K := suiteOf s) hc h.on rfl rfl rfl (h.holds hread) hsome
  rw [hm, isLargest_same hlargest]

/-- Opening a synced volume with a footer gives the store back. -/
theorem Synced.reopen (h : Synced L s d) (hc : LawfulCodec P s.codec) (hf : 0 < L.footers)
    (hread : ∀ i, i < L.count → d.readFault (L.metaLba i) = false) :
    JvckMetadataReader.openReader P d = .ok (readerOf s.header L d) ∧
      openWith P s.codec d s.vmk = .ok { s with state := (VolumeState.fromU16 s.state).asU16 } := by
  have hcount : 0 < L.count := by
    rw [Layout.count]
    omega
  have hlast : L.metaLba (L.count - 1) = d.sectors - 1 := by
    rw [L.metaLba_last hf, h.on.total]
  have hintact := h.holds (P := P) hread (L.count - 1) (by omega)
  simp only [hlast] at hintact
  have hopen : JvckMetadataReader.openReader P d = .ok (readerOf s.header L d) :=
    openReader_of_last (K := suiteOf s) hc h.layoutOf hintact
  refine ⟨hopen, ?_⟩
  rw [openWith_eq hopen]
  exact h.intoStore hc hcount hread

/-- The reader hands out every replica with its own block. -/
theorem Synced.replicaCtx (h : Synced L s d) (hc : LawfulCodec P s.codec)
    (hread : ∀ i, i < L.count → d.readFault (L.metaLba i) = false) {i : Nat} (hi : i < L.count) :
    ∃ ctx, (readerOf s.header L d).replicaCtx P d i = .ok ctx ∧
      JvckMetadata.parse P ctx.block.toList = .ok s.header := by
  have hon := readerOf_on h.layoutOf
  have hlba : (readerOf s.header L d).lbas[i]? = some (UInt64.ofNat (L.metaLba i)) := by
    rw [hon.lbas, List.getElem?_map, List.getElem?_range hi]
    rfl
  obtain ⟨salt, hseal⟩ := h.replicas i hi
  have hparse := hc.parse hseal
  have hcrc := JvckMetadata.verifyCrc_of_parse hparse
  refine ⟨(readerOf s.header L d).ctx s.header d i (blockAt d (L.metaLba i)), ?_, hparse⟩
  rw [JvckMetadataReader.replicaCtx, hlba]
  simp only [hon.readBlock hi, hread i hi, Bool.false_eq_true, if_false]
  change (JvckMetadata.verifyCrc P (blockAt d (L.metaLba i)).toList >>= _) = _
  rw [hcrc]
  rfl

/-- A vendor range of a readable device. -/
theorem readVendor_eq {p : Placement} (hon : On p L d) (hread : ∀ lba, d.readFault lba = false) {i n : Nat}
    {rel : UInt64} (hi : i < L.count) (hn : 0 < n) (hr : rel.toNat + n ≤ L.replica - 1) :
    (do let lba ← p.vendorDataLba i rel (n * d.ss)
        readSectors d lba (n * d.ss)) = .ok (d.area (L.vendorBase i + rel.toNat) n) := by
  have hend := vendorBase_lt hi (show rel.toNat + n - 1 < L.replica - 1 by omega)
  have htot := hon.total
  have hlen : n * d.ss < 2 ^ 64 := by
    have ha : d.sectors * d.ss < 2 ^ 64 := d.addressable
    have hle : n * d.ss ≤ d.sectors * d.ss := Nat.mul_le_mul_right _ (by omega)
    omega
  have hlba := (vendorDataLba_ok_iff hon hlen).mpr ⟨n, hn, rfl, hi, hr, rfl⟩
  have hnat := toNat_vendorSector hon hi (show rel.toNat < L.replica - 1 by omega)
  have hreach : Reachable d d.readFault (UInt64.ofNat (L.vendorBase i + rel.toNat)).toNat n := by
    rw [hnat]
    exact ⟨by omega, fun k _ => hread _⟩
  rw [hlba]
  change readSectors d (UInt64.ofNat (L.vendorBase i + rel.toNat)) (n * d.ss) = _
  rw [readSectors_of_reachable (by have := hon.ss; omega) hreach, hnat]

/-- The record of a freshly created volume; the vendor sectors keep what the device held. -/
def createdRecord (s₀ : JvckMetadataStore) (d₀ : Device) : VolumeRecord :=
  { offset := 0
    state := .encrypt
    vendorReserved := List.Vector.replicate 192 0
    vendor := fun i r => ((s₀.vendorBase i).map fun base => d₀.sector (base.toNat + r)).getD [] }

theorem create_represents {d₀ d₁ : Device} {vmk : Bytes} {options : JvckMetadataOptions} {k₁ k₂ : Fixed 32}
    {vid : Fixed 16} {codec : MetadataCodec} {s₀ : JvckMetadataStore} (hh : options.useHeader.toNat ≤ 255)
    (hf : options.useFooter.toNat ≤ 255)
    (hc : JvckMetadataStore.create d₀ vmk options k₁ k₂ vid codec = (.ok s₀, d₁)) :
    ∃ L : Layout, L.Of d₀.sectorSize d₀.totalSectors options ∧
      Represents L s₀ d₀.ss (s₀, d₁) (createdRecord s₀ d₀) := by
  obtain ⟨L, hL, hsync, hframe, -, -, hsuite, -, hvr, ho, hst⟩ := create_spec hh hf hc
  refine ⟨L, hL, ⟨hsync, hframe.ss, rfl, ?_, ho, ?_, ?_⟩⟩
  · rw [suiteOf, createdRecord, ← hvr]
  · rw [hst]
    rfl
  · intro i r hi hr
    have hbase : s₀.vendorBase i = some (UInt64.ofNat (L.vendorBase i)) := by
      rw [vendorBase_eq hsync.on, if_pos hi]
    have hnat : (UInt64.ofNat (L.vendorBase i)).toNat = L.vendorBase i := by
      rw [UInt64.toNat_ofNat']
      have h₁ := vendorBase_lt hi hr
      have h₂ := hL.total_lt
      exact Nat.mod_eq_of_lt (by omega)
    rw [hframe.sector_eq (isMeta_not_vendor hr)]
    simp only [createdRecord, hbase, Option.map_some, Option.getD_some, hnat]

/-- What opening the volume again must show of the record `v`. -/
structure Reopened (P : Primitives) (s₀ : JvckMetadataStore) (d : Device) (v : VolumeRecord)
    (reader : JvckMetadataReader) (s : JvckMetadataStore) : Prop where
  geometry : s.geometry = s₀.geometry ∧ reader.geometry = s₀.geometry
  volumeId : s.header.volumeId = s₀.header.volumeId
  secrets : s.secrets = s₀.secrets
  vendorReserved : reader.header.vendorReserved = v.vendorReserved
  replicas : ∀ i, i < s₀.replicaCount → ∃ ctx header, reader.replicaCtx P d i = .ok ctx ∧
    JvckMetadata.parse P ctx.block.toList = .ok header ∧ header.vendorReserved = v.vendorReserved
  load : s.load P d = .ok ⟨v.offset, s₀.geometry.dataSectors⟩
  loadState : s.loadState = .ok v.state
  vendor : ∀ i n (rel : UInt64), i < s₀.replicaCount → 0 < n → rel.toNat + n ≤ s₀.vendorDataSectorCount.toNat →
    s.readVendorData d i rel (n * d.ss) = .ok ((List.range n).flatMap fun k => v.vendor i (rel.toNat + k)) ∧
    reader.readVendorData d i rel (n * d.ss) = .ok ((List.range n).flatMap fun k => v.vendor i (rel.toNat + k))

/-- A represented volume with a footer opens as its record says. -/
theorem Represents.reopened {s₀ : JvckMetadataStore} {v : VolumeRecord} (h : Represents L s₀ d.ss (s, d) v)
    (hc : LawfulCodec P s₀.codec) (hf : 0 < L.footers) (hread : ∀ lba, d.readFault lba = false) :
    ∃ reader s', JvckMetadataReader.openReader P d = .ok reader ∧ openWith P s₀.codec d s₀.vmk = .ok s' ∧
      Reopened P s₀ d v reader s' := by
  obtain ⟨hcodec, hheader, hsecrets, hvmk⟩ := Suite.mk.inj h.suite
  have hsync := h.synced
  rw [← hcodec] at hc
  simp only at hcodec hheader hsecrets hvmk hsync hc
  have hmeta : ∀ i, i < L.count → d.readFault (L.metaLba i) = false := fun i _ => hread _
  obtain ⟨hreader, hopen⟩ := hsync.reopen hc hf hmeta
  have hplace : s.toPlacement = s₀.toPlacement := h.placement
  have hon := hsync.on
  have hcount : s₀.replicaCount = L.count := by
    rw [← hplace]
    exact replicaCount_eq hon
  have hvc : s₀.vendorDataSectorCount.toNat = L.replica - 1 := by
    rw [← hplace]
    exact toNat_vendorCount hon
  have hholds := hsync.holds (P := P) hmeta
  have hpos : 0 < L.count := by
    rw [Layout.count]
    omega
  rw [← hcodec, ← hvmk]
  refine ⟨_, _, hreader, hopen, ?_⟩
  constructor
  · refine ⟨congrArg Placement.geometry hplace, ?_⟩
    exact congrArg Placement.geometry (hsync.readerPlacement.trans hplace)
  · change s.header.volumeId = _
    rw [hheader]
  · exact hsecrets
  · change s.header.vendorReserved = _
    rw [hheader]
  · intro i hi
    rw [hcount] at hi
    obtain ⟨ctx, hctx, hparse⟩ := hsync.replicaCtx hc hmeta hi
    exact ⟨ctx, _, hctx, hparse, by rw [hheader]⟩
  · have hload := (hsync.normalised).loadOffset hc hpos hmeta
    have ho : s.offset = v.offset := h.offset
    rw [JvckMetadataStore.load, hload, ← ho, ← hplace]
    rfl
  · change Except.ok (VolumeState.fromU16 (VolumeState.fromU16 s.state).asU16) = _
    rw [VolumeState.fromU16_asU16]
    exact congrArg Except.ok h.state
  · intro i n rel hi hn hr
    rw [hcount] at hi
    rw [hvc] at hr
    have harea : d.area (L.vendorBase i + rel.toNat) n =
        (List.range n).flatMap fun k => v.vendor i (rel.toNat + k) := by
      apply List.flatMap_congr
      intro k hk
      have hk := List.mem_range.mp hk
      rw [← h.vendor i (rel.toNat + k) hi (by omega), Nat.add_assoc]
    rw [← harea]
    exact ⟨readVendor_eq hon hread hi hn hr, readVendor_eq (readerOf_on hsync.layoutOf) hread hi hn hr⟩

/-- Over every run of successful operations after `create`, opening the volume again shows exactly
what was last stored. -/
theorem durable_store (P : Primitives) {codec : MetadataCodec} (hc : LawfulCodec P codec) {d₀ d₁ d : Device}
    {vmk : Bytes} {options : JvckMetadataOptions} {k₁ k₂ : Fixed 32} {vid : Fixed 16}
    (hh : options.useHeader.toNat ≤ 255) (hf : options.useFooter.toNat ≤ 255) (hfooter : 1 ≤ options.useFooter.toNat)
    {s₀ s : JvckMetadataStore} (hcreate : JvckMetadataStore.create d₀ vmk options k₁ k₂ vid codec = (.ok s₀, d₁))
    {ops : List StoreOp} (hrun : StepRun.run step (s₀, d₁) ops = some (s, d))
    (hread : ∀ lba, d.readFault lba = false) :
    ∃ reader s', JvckMetadataReader.openReader P d = .ok reader ∧ openWith P codec d vmk = .ok s' ∧
      (codec = jvckCbcCodec P → JvckMetadataStore.openStore P d vmk = .ok s') ∧
      Reopened P s₀ d (ops.foldl (VolumeRecord.apply d₀.ss) (createdRecord s₀ d₀)) reader s' ∧
      s'.header.volumeId = vid ∧ s'.secrets = ⟨k₁, k₂⟩ := by
  obtain ⟨L, hL, hrep⟩ := create_represents hh hf hcreate
  obtain ⟨-, -, -, -, -, -, hsuite, hvid, -⟩ := create_spec hh hf hcreate
  obtain ⟨hcodec, -, hsecrets, hvmk⟩ := Suite.mk.inj hsuite
  have hfin := StepRun.run_simulates (VolumeRecord.apply d₀.ss) step_represents hrep hrun
  have hss : d.ss = d₀.ss := hfin.sectorSize
  rw [← hss] at hfin ⊢
  have hpos : 0 < L.footers := by
    rw [hL.footers]
    exact hfooter
  obtain ⟨reader, s', hreader, hopen, hre⟩ := hfin.reopened (by rw [hcodec]; exact hc) hpos hread
  rw [hcodec, hvmk] at hopen
  refine ⟨reader, s', hreader, hopen, ?_, hre, hre.volumeId.trans hvid, hre.secrets.trans hsecrets⟩
  rintro rfl
  exact hopen

/-- The layout of two footer replicas of 128 KiB on 1024 sectors of 512 bytes. -/
def twoFooters : Layout := ⟨256, 0, 2, 1024, by decide, by decide⟩

theorem twoFooters_of : twoFooters.Of 512 1024 ⟨0, 2, 131072⟩ :=
  ⟨by decide, by decide, by decide, by decide, by decide, by decide⟩

/-- A created volume with one stored offset. -/
theorem durable_store_seven :
    ∃ s₀ d₁ s d s', JvckMetadataStore.create (blank 512 1024 (by decide)) [1, 2, 3] ⟨0, 2, 131072⟩
        (List.Vector.replicate 32 1) (List.Vector.replicate 32 2) (List.Vector.replicate 16 9)
        (jvckCbcCodec JvckMetadata.standard) = (.ok s₀, d₁) ∧
      StepRun.run step (s₀, d₁) [.store ⟨7, 512⟩, .storeState .decrypt] = some (s, d) ∧
      JvckMetadataStore.openStore JvckMetadata.standard d [1, 2, 3] = .ok s' ∧
      s'.load JvckMetadata.standard d = .ok ⟨7, s₀.geometry.dataSectors⟩ ∧ s'.loadState = .ok .decrypt := by
  have hd : Healthy (blank 512 1024 (by decide)) := blank_healthy _
  obtain ⟨s₀, d₁, hcreate, hcodec⟩ := create_cbc (P := JvckMetadata.standard) [1, 2, 3] (List.Vector.replicate 32 1)
    (List.Vector.replicate 32 2) (List.Vector.replicate 16 9) hd (by decide) twoFooters_of
  obtain ⟨L, -, hsync, hframe, -⟩ := create_spec (by decide) (by decide) hcreate
  have hd₁ := hd.frame hframe
  let s₁ : JvckMetadataStore := { s₀ with offset := 7 }
  let s₂ : JvckMetadataStore := { s₁ with state := VolumeState.decrypt.asU16 }
  have hw₁ : s₁.writeAllReplicas d₁ = (.ok (), _) := writeReplicas_cbc (s := s₁) hsync.on hd₁ hcodec _
  obtain ⟨hframe₁, -⟩ := writeAllReplicas_spec (s := s₁) hsync.on hw₁
  have hw₂ : s₂.writeAllReplicas (s₁.writeAllReplicas d₁).2 = (.ok (), _) :=
    writeReplicas_cbc (s := s₂) (hsync.on.frame hframe₁) (hd₁.frame hframe₁) hcodec _
  obtain ⟨hframe₂, -⟩ := writeAllReplicas_spec (s := s₂) (hsync.on.frame hframe₁) hw₂
  have hrun : StepRun.run step (s₀, d₁) [.store ⟨7, 512⟩, .storeState .decrypt] =
      some (s₂, (s₂.writeAllReplicas (s₁.writeAllReplicas d₁).2).2) := by
    have h₁ : step (s₀, d₁) (.store ⟨7, 512⟩) = some (s₁, (s₁.writeAllReplicas d₁).2) :=
      step_eq_some.mpr (by
        change ((s₁.writeAllReplicas d₁).1, s₁, (s₁.writeAllReplicas d₁).2) = _
        rw [congrArg Prod.fst hw₁])
    have h₂ : step (s₁, (s₁.writeAllReplicas d₁).2) (.storeState .decrypt) =
        some (s₂, (s₂.writeAllReplicas (s₁.writeAllReplicas d₁).2).2) :=
      step_eq_some.mpr (by
        change ((s₂.writeAllReplicas (s₁.writeAllReplicas d₁).2).1, s₂, _) = _
        rw [congrArg Prod.fst hw₂])
    exact StepRun.run_cons_eq_some.mpr ⟨_, h₁, StepRun.run_cons_eq_some.mpr ⟨_, h₂, rfl⟩⟩
  have hd₂ := (hd₁.frame hframe₁).frame hframe₂
  obtain ⟨reader, s', -, -, hopen, hre, -⟩ := durable_store JvckMetadata.standard (jvckCbcCodec_lawful _) (by decide)
    (by decide) (by decide) hcreate hrun hd₂.readFault
  exact ⟨s₀, d₁, _, _, s', hcreate, hrun, hopen rfl, hre.load, hre.loadState⟩

end Reopen

end JvckRuns
