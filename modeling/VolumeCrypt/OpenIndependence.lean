import VolumeCrypt.JvckRecovery

/-!
# What opening a volume depends on

Phase A looks at the last sector and at sector 0, whether or not the layout puts a replica there, and
trusts an unkeyed checksum. Opening is independent of the user's data exactly when neither look falls on
a readable data sector.
-/
namespace OpenIndependence

open ByteString ByteMemory VckTypes SectorIo JvckLayout JvckStore JvckReplicas JvckRuns JvckRecovery
open JvckMetadata (Primitives JvckHeader JvckSecrets)

/-- `d'` is `d` after damage to any of the replicas, and with any data. -/
structure DamagedReplicas (P : Primitives) (L : Layout) (damaged : Nat → Bool) (d d' : Device) : Prop where
  sectorSize : d'.sectorSize = d.sectorSize
  totalSectors : d'.totalSectors = d.totalSectors
  kept : ∀ i, i < L.count → damaged i = false →
    d'.readFault (L.metaLba i) = false ∧ blockAt d' (L.metaLba i) = blockAt d (L.metaLba i)
  lost : ∀ i, i < L.count → damaged i = true → Damaged P d' (L.metaLba i)

/-- Opening `d₁` and `d₂` with the same key ends alike: both fail, or both succeed with the same header,
geometry, offset, state and keys. -/
def SameOpen (P : Primitives) (vmk : Bytes) (d₁ d₂ : Device) : Prop :=
  (JvckMetadataStore.openStore P d₁ vmk).toOption = (JvckMetadataStore.openStore P d₂ vmk).toOption

/-- Phase A reads a data sector: the last one when there is no footer replica, or sector 0 when there is
no header replica and the last one is readable but not valid. -/
def ReadsData (P : Primitives) (L : Layout) (d : Device) : Prop :=
  (L.footers = 0 ∧ d.readFault (d.sectors - 1) = false) ∨
    (L.headers = 0 ∧ 0 < L.footers ∧ d.readFault (d.sectors - 1) = false ∧
      JvckMetadata.verifyCrc P (blockAt d (d.sectors - 1)).toList ≠ .ok () ∧ d.readFault 0 = false)

section Congruence

variable {P : Primitives} {L : Layout} {d₁ d₂ : Device} {r : JvckMetadataReader} {vmk : Bytes}

theorem selectLoop_codec {d : Device} {codec : MetadataCodec} {lbas : List UInt64} {p : MetadataCodec × Unsealed}
    (h : (r.selectLoop P d (selectWith codec vmk) 0 none lbas).toOption = some p) : p.1 = codec := by
  rw [selectLoop_eq] at h
  obtain ⟨x, -, hx⟩ := List.exists_of_findSome?_eq_some h
  simp only [replicaSelect] at hx
  split at hx
  · cases hx
  · split at hx
    · cases hx
    · rename_i block _ _ _
      simp only [selectWith] at hx
      cases hu : codec.unsealPayload (r.ctx r.header d x.2 block) vmk with
      | error e =>
        rw [hu] at hx
        cases hx
      | ok u =>
        rw [hu] at hx
        cases hx
        rfl

/-- Phase B reads nothing but the Metadata sectors of its layout. -/
theorem intoStore_congr (hon : On r.toPlacement L d₁)
    (hread : ∀ i, i < L.count →
      readBlock d₁ r.geometry.sectorSize (UInt64.ofNat (L.metaLba i)) =
        readBlock d₂ r.geometry.sectorSize (UInt64.ofNat (L.metaLba i))) :
    (r.intoStore P d₁ vmk (selectWith (jvckCbcCodec P) vmk)).toOption =
      (r.intoStore P d₂ vmk (selectWith (jvckCbcCodec P) vmk)).toOption := by
  have hselect : (r.selectLoop P d₁ (selectWith (jvckCbcCodec P) vmk) 0 none r.lbas).toOption =
      (r.selectLoop P d₂ (selectWith (jvckCbcCodec P) vmk) 0 none r.lbas).toOption := by
    rw [selectLoop_eq, selectLoop_eq, zipIdx_lbas hon, List.findSome?_map, List.findSome?_map,
      ← List.head?_filterMap, ← List.head?_filterMap]
    congr 1
    apply List.filterMap_congr
    intro i hi
    simp only [Function.comp_apply, replicaSelect, hread i (List.mem_range.mp hi)]
    rfl
  have hload (s : JvckMetadataStore) (hp : s.toPlacement = r.toPlacement) (hcodec : s.codec = jvckCbcCodec P) :
      s.loadOffset P d₁ = s.loadOffset P d₂ := by
    rw [JvckMetadataStore.loadOffset, JvckMetadataStore.loadOffset, loadLoop_eq, loadLoop_eq, hp, zipIdx_lbas hon,
      List.filterMap_map, List.filterMap_map]
    have hlist : (List.range L.count).filterMap ((fun x => replicaOffset P s d₁ x.2 x.1) ∘
          fun i => (UInt64.ofNat (L.metaLba i), i)) =
        (List.range L.count).filterMap ((fun x => replicaOffset P s d₂ x.2 x.1) ∘
          fun i => (UInt64.ofNat (L.metaLba i), i)) := by
      apply List.filterMap_congr
      intro i hi
      simp only [Function.comp_apply, replicaOffset, hp, hread i (List.mem_range.mp hi), hcodec]
      rfl
    rw [hlist]
  simp only [JvckMetadataReader.intoStore]
  cases h₁ : r.selectLoop P d₁ (selectWith (jvckCbcCodec P) vmk) 0 none r.lbas with
  | error e₁ =>
    rw [h₁] at hselect
    cases h₂ : r.selectLoop P d₂ (selectWith (jvckCbcCodec P) vmk) 0 none r.lbas with
    | error e₂ => rfl
    | ok q =>
      rw [h₂] at hselect
      cases hselect
  | ok p =>
    have hcodec : p.1 = jvckCbcCodec P := selectLoop_codec (congrArg Except.toOption h₁)
    rw [h₁] at hselect
    cases h₂ : r.selectLoop P d₂ (selectWith (jvckCbcCodec P) vmk) 0 none r.lbas with
    | error e₂ =>
      rw [h₂] at hselect
      cases hselect
    | ok q =>
      rw [h₂] at hselect
      obtain rfl := Option.some.inj hselect
      obtain ⟨codec, u⟩ := p
      simp only
      rw [hload _ rfl hcodec]

/-- Devices that agree on every Metadata sector give the same blocks. -/
theorem readBlock_frame {p : Placement} (hon : On p L d₁) (hf : Frame L.InData d₁ d₂) {i : Nat} (hi : i < L.count) :
    readBlock d₁ p.geometry.sectorSize (UInt64.ofNat (L.metaLba i)) =
      readBlock d₂ p.geometry.sectorSize (UInt64.ofNat (L.metaLba i)) := by
  rw [hon.readBlock hi, (hon.frame hf).readBlock hi, hf.readFault, blockAt_frame hf (L.metaLba_not_data hi)]

theorem openBlock_frame {S : Nat → Prop} (hf : Frame S d₁ d₂) (block : Fixed 512) :
    openBlock P d₂ block = openBlock P d₁ block := by
  rw [openBlock, openBlock, hf.sectorSize, hf.totalSectors]

end Congruence

/-! ## Independence -/

section Independence

variable {P : Primitives} {L : Layout} {s : JvckMetadataStore} {damaged : Nat → Bool} {d d₁ d₂ : Device}

theorem DamagedReplicas.layoutOf (h : DamagedReplicas P L damaged d d₁) (hsync : Synced L s d) :
    L.Of d₁.sectorSize d₁.totalSectors (JvckMetadataReader.optionsOf s.header) := by
  rw [h.sectorSize, h.totalSectors]
  exact hsync.layoutOf

/-- A Metadata sector that can be read and passes the checksum test holds an undamaged replica. -/
theorem DamagedReplicas.openBlock_eq (h : DamagedReplicas P L damaged d d₁) (hsync : Synced L s d)
    (hc : LawfulCodec P s.codec) {i : Nat} (hi : i < L.count) (hread : d₁.readFault (L.metaLba i) = false)
    (hv : JvckMetadata.verifyCrc P (blockAt d₁ (L.metaLba i)).toList = .ok ()) :
    openBlock P d₁ (blockAt d₁ (L.metaLba i)) = .ok (readerOf s.header L d₁) := by
  cases hdam : damaged i with
  | true =>
    rcases h.lost i hi hdam with hbad | hbad
    · rw [hread] at hbad
      cases hbad
    · exact absurd hv hbad
  | false =>
    obtain ⟨salt, hseal⟩ := hsync.replicas i hi
    rw [(h.kept i hi hdam).2]
    exact JvckReplicas.openBlock_eq (hc.parse hseal) (h.layoutOf hsync)

/-- Where Phase A does not read data, it ends alike on both devices, and success means the volume's own layout. -/
theorem openReader_independent (h : DamagedReplicas P L damaged d d₁) (hsync : Synced L s d)
    (hc : LawfulCodec P s.codec) (hsafe : ¬ ReadsData P L d₁) (hf : Frame L.InData d₁ d₂) :
    (JvckMetadataReader.openReader P d₁ = .ok (readerOf s.header L d₁) ∧
        JvckMetadataReader.openReader P d₂ = .ok (readerOf s.header L d₁)) ∨
      ∃ e, JvckMetadataReader.openReader P d₁ = .error e ∧ JvckMetadataReader.openReader P d₂ = .error e := by
  have hL := h.layoutOf hsync
  have htotal : L.total = d₁.sectors := hL.total
  have hn : 0 < d₁.sectors := by
    have := L.fits
    omega
  have hopen₁ := openReader_eq (P := P) hL.sectorSize hn
  have hopen₂ := openReader_eq (P := P) (d := d₂) (by rw [hf.ss]; exact hL.sectorSize) (by rw [hf.sectors]; exact hn)
  simp only [hf.sectors, hf.readFault, openBlock_frame hf] at hopen₂
  rw [hopen₁, hopen₂]
  cases hlast : d₁.readFault (d₁.sectors - 1) with
  | true => exact .inr ⟨_, rfl, rfl⟩
  | false =>
    have hfoot : 0 < L.footers := by
      apply Nat.pos_of_ne_zero
      intro hzero
      exact hsafe (.inl ⟨hzero, hlast⟩)
    have hcount : L.count - 1 < L.count := by
      rw [Layout.count]
      omega
    have hmeta : d₁.sectors - 1 = L.metaLba (L.count - 1) := by rw [L.metaLba_last hfoot, htotal]
    have hsame : blockAt d₂ (d₁.sectors - 1) = blockAt d₁ (d₁.sectors - 1) := by
      rw [hmeta]
      exact blockAt_frame hf (L.metaLba_not_data hcount)
    simp only [hsame, Bool.false_eq_true, if_false]
    by_cases hv : JvckMetadata.verifyCrc P (blockAt d₁ (d₁.sectors - 1)).toList = .ok ()
    · left
      simp only [if_pos hv]
      rw [hmeta] at hv hlast ⊢
      have hblock := h.openBlock_eq hsync hc hcount hlast hv
      exact ⟨hblock, hblock⟩
    · simp only [if_neg hv]
      cases hfirst : d₁.readFault 0 with
      | true => exact .inr ⟨_, rfl, rfl⟩
      | false =>
        have hhead : 0 < L.headers := by
          apply Nat.pos_of_ne_zero
          intro hzero
          exact hsafe (.inr ⟨hzero, hfoot, hlast, hv, hfirst⟩)
        have hzero : L.metaLba 0 = 0 := L.metaLba_first hhead
        have hpos : 0 < L.count := by omega
        have hsame₀ : blockAt d₂ 0 = blockAt d₁ 0 :=
          blockAt_frame hf (hzero ▸ L.metaLba_not_data hpos)
        simp only [hsame₀, Bool.false_eq_true, if_false]
        by_cases hv₀ : JvckMetadata.verifyCrc P (blockAt d₁ 0).toList = .ok ()
        · left
          have hblock := h.openBlock_eq hsync hc hpos (by rw [hzero]; exact hfirst) (by rw [hzero]; exact hv₀)
          rw [hzero] at hblock
          simp only [if_pos hv₀]
          exact ⟨hblock, hblock⟩
        · right
          simp only [if_neg hv₀]
          exact ⟨_, rfl, rfl⟩

theorem sameOpen_of_safe (h : DamagedReplicas P L damaged d d₁) (hsync : Synced L s d)
    (hcodec : s.codec = jvckCbcCodec P) (hsafe : ¬ ReadsData P L d₁) (hf : Frame L.InData d₁ d₂) (vmk : Bytes) :
    SameOpen P vmk d₁ d₂ := by
  have hc : LawfulCodec P s.codec := by
    rw [hcodec]
    exact jvckCbcCodec_lawful P
  rw [SameOpen, JvckMetadataStore.openStore, JvckMetadataStore.openStore]
  rcases openReader_independent h hsync hc hsafe hf with ⟨h₁, h₂⟩ | ⟨e, h₁, h₂⟩
  · have hon := readerOf_on (h.layoutOf hsync)
    rw [openWith_eq h₁, openWith_eq h₂]
    exact intoStore_congr hon fun i hi => readBlock_frame hon hf hi
  · rw [openWith, openWith, h₁, h₂]
    rfl

/-! ## A block planted in the data -/

/-- The device with a block written over the head of a sector. -/
def plant (d : Device) (lba : Nat) (block : Fixed 512) : Device :=
  { d with bytes := save d.bytes (lba * d.ss) block.toList }

theorem plant_frame (d : Device) (lba : Nat) (block : Fixed 512) (hs : 512 ≤ d.ss) :
    Frame (· = lba) d (plant d lba block) := by
  refine ⟨rfl, rfl, rfl, rfl, rfl, ?_⟩
  intro a ha
  apply save_apply_of_not_mem
  rw [List.Vector.toList_length]
  have hp : 0 < d.ss := by omega
  rcases Nat.lt_or_gt_of_ne ha with hlt | hgt
  · exact .inl ((Nat.div_lt_iff_lt_mul hp).mp hlt)
  · have hge : (lba + 1) * d.ss ≤ a := (Nat.le_div_iff_mul_le hp).mp hgt
    rw [Nat.succ_mul] at hge
    exact .inr (by omega)

theorem blockAt_plant (d : Device) (lba : Nat) (block : Fixed 512) (hs : 512 ≤ d.ss) :
    blockAt (plant d lba block) lba = block := by
  have hload : slice ((plant d lba block).sector lba) 0 512 = block.toList := by
    change slice (load (save d.bytes (lba * d.ss) block.toList) (lba * d.ss) d.ss) 0 512 = _
    rw [slice_load _ (by rwa [Nat.zero_add])]
    exact load_save_same _ (List.Vector.toList_length _)
  rw [blockAt, hload, Fixed.ofBytes_toList]

/-- A header like the volume's own, for a single replica and another volume. -/
def foreignHeader (header : JvckHeader) (headers footers : UInt8) (volumeId : Fixed 16) : JvckHeader :=
  { header with headerReplicaCount := headers, footerReplicaCount := footers, volumeId }

/-- The sealed block of such a volume. -/
def foreignBlock (P : Primitives) (header : JvckHeader) (vmk : Bytes) : Fixed 512 :=
  ⟨JvckMetadata.encode P header ⟨List.Vector.replicate 32 0, List.Vector.replicate 32 0⟩ 0 .encrypt
    (List.Vector.replicate 16 0) vmk, JvckMetadata.length_encode ..⟩

def foreignSuite (P : Primitives) (header : JvckHeader) (vmk : Bytes) : Suite :=
  ⟨jvckCbcCodec P, header, ⟨List.Vector.replicate 32 0, List.Vector.replicate 32 0⟩, vmk⟩

/-- A planted single replica that Phase A finds is opened. -/
theorem planted_opens (vmk : Bytes) {header : JvckHeader} {M : Layout} {lba : Nat} (hs : 512 ≤ d₁.ss)
    (hM : M.Of d₁.sectorSize d₁.totalSectors (JvckMetadataReader.optionsOf header)) (hone : M.count = 1)
    (hlba : M.metaLba 0 = lba) (hread : d₁.readFault lba = false)
    (hfind : (foreignSuite P header vmk).Intact (plant d₁ lba (foreignBlock P header vmk)) lba 0 .encrypt →
      JvckMetadataReader.openReader P (plant d₁ lba (foreignBlock P header vmk)) =
        .ok (readerOf header M (plant d₁ lba (foreignBlock P header vmk)))) :
    ∃ store, JvckMetadataStore.openStore P (plant d₁ lba (foreignBlock P header vmk)) vmk = .ok store ∧
      store.header = header := by
  have hintact : (foreignSuite P header vmk).Intact (plant d₁ lba (foreignBlock P header vmk)) lba 0 .encrypt := by
    refine ⟨hread, List.Vector.replicate 16 0, ?_⟩
    rw [blockAt_plant _ _ _ hs]
    rfl
  have hholds : (foreignSuite P header vmk).Holds P M (plant d₁ lba (foreignBlock P header vmk))
      fun _ => some (0, .encrypt) := by
    intro i hi
    obtain rfl : i = 0 := by omega
    rw [hlba]
    exact hintact
  have hfirst : (List.range M.count).findSome? (fun _ => some ((0 : UInt64), VolumeState.encrypt)) =
      some (0, .encrypt) := by
    rw [hone]
    rfl
  obtain ⟨m, -, hstore⟩ := intoStore_of_holds (K := foreignSuite P header vmk) (jvckCbcCodec_lawful P)
    (readerOf_on (d := plant d₁ lba (foreignBlock P header vmk)) hM) rfl hholds hfirst
  rw [JvckMetadataStore.openStore, openWith_eq (hfind hintact)]
  exact ⟨_, hstore, rfl⟩

/-- The layout of a single replica of the same size. -/
def single (L : Layout) (headers footers : Nat) (hone : headers + footers = 1) (hcount : 0 < L.count) : Layout where
  replica := L.replica
  headers := headers
  footers := footers
  total := L.total
  replica_pos := L.replica_pos
  fits := by
    have hfits := L.fits
    rw [hone, Nat.one_mul]
    exact Nat.lt_of_le_of_lt (Nat.le_mul_of_pos_left _ hcount) hfits

theorem single_of {header : JvckHeader} (hL : L.Of d₁.sectorSize d₁.totalSectors (JvckMetadataReader.optionsOf header))
    (headers footers : UInt8) (hone : headers.toNat + footers.toNat = 1) (hcount : 0 < L.count) (volumeId : Fixed 16) :
    (single L headers.toNat footers.toNat hone hcount).Of d₁.sectorSize d₁.totalSectors
      (JvckMetadataReader.optionsOf (foreignHeader header headers footers volumeId)) := by
  refine ⟨hL.replica, ?_, ?_, hL.total, hL.sectorSize, ?_⟩
  · simp [single, JvckMetadataReader.optionsOf, foreignHeader]
  · simp [single, JvckMetadataReader.optionsOf, foreignHeader]
  · simp only [JvckMetadataReader.optionsOf, foreignHeader, UInt8.toNat_toUInt32]
    omega

/-- Where Phase A reads a data sector, whoever writes that sector decides what opens. -/
theorem foreign_opens (h : DamagedReplicas P L damaged d d₁) (hsync : Synced L s d) (hcount : 0 < L.count)
    (hreads : ReadsData P L d₁) (vmk : Bytes) (volumeId : Fixed 16) :
    ∃ d₂ store, Frame L.InData d₁ d₂ ∧ JvckMetadataStore.openStore P d₂ vmk = .ok store ∧
      store.header.volumeId = volumeId := by
  have hL := h.layoutOf hsync
  have hs : 512 ≤ d₁.ss := hL.sectorSize
  have htotal : L.total = d₁.sectors := hL.total
  rcases hreads with ⟨hfoot, hread⟩ | ⟨hhead, hfoot, hread, hbad, hzero⟩
  · have hM := single_of hL 0 1 rfl hcount volumeId
    have hlast : (single L 0 1 rfl hcount).metaLba 0 = d₁.sectors - 1 := by
      have hml := (single L 0 1 rfl hcount).metaLba_last Nat.one_pos
      rw [← htotal]
      exact hml
    obtain ⟨store, hopen, hheader⟩ := planted_opens (P := P) vmk hs hM rfl hlast hread
      fun hintact => openReader_of_last (K := foreignSuite P _ vmk) (jvckCbcCodec_lawful P) hM hintact
    refine ⟨_, store, (plant_frame _ _ _ hs).mono ?_, hopen, by rw [hheader]; rfl⟩
    rintro l rfl
    rw [← htotal]
    exact L.last_inData hfoot
  · have hM := single_of hL 1 0 rfl hcount volumeId
    have hfirst : (single L 1 0 rfl hcount).metaLba 0 = 0 := (single L 1 0 rfl hcount).metaLba_first Nat.one_pos
    have hne : d₁.sectors - 1 ≠ 0 := by
      intro heq
      have hin := L.first_inData hhead
      rw [← heq, ← htotal, ← L.metaLba_last hfoot] at hin
      exact L.metaLba_not_data (by rw [Layout.count]; omega) hin
    obtain ⟨store, hopen, hheader⟩ := planted_opens (P := P) vmk hs hM rfl hfirst hzero
      fun hintact => openReader_of_first (K := foreignSuite P _ vmk) (jvckCbcCodec_lawful P) hM hread
        (by rw [blockAt_frame (plant_frame _ _ _ hs)]; exact hbad; exact hne) hintact
    refine ⟨_, store, (plant_frame _ _ _ hs).mono ?_, hopen, by rw [hheader]; rfl⟩
    rintro l rfl
    exact L.first_inData hhead

/-- Two planted volumes cannot both open like the device they were planted on. -/
theorem not_independent_of_readsData (h : DamagedReplicas P L damaged d d₁) (hsync : Synced L s d)
    (hcount : 0 < L.count) (hreads : ReadsData P L d₁) (vmk : Bytes) :
    ∃ d₂, Frame L.InData d₁ d₂ ∧ ¬ SameOpen P vmk d₁ d₂ := by
  by_contra hall
  have hsame : ∀ d₂, Frame L.InData d₁ d₂ → SameOpen P vmk d₁ d₂ := by
    intro d₂ hf
    by_contra hne
    exact hall ⟨d₂, hf, hne⟩
  obtain ⟨d₂, store₂, hf₂, hopen₂, hid₂⟩ := foreign_opens h hsync hcount hreads vmk (List.Vector.replicate 16 0)
  obtain ⟨d₃, store₃, hf₃, hopen₃, hid₃⟩ := foreign_opens h hsync hcount hreads vmk (List.Vector.replicate 16 1)
  have heq := (hsame d₂ hf₂).symm.trans (hsame d₃ hf₃)
  rw [hopen₂, hopen₃] at heq
  obtain rfl := Option.some.inj heq
  exact absurd (hid₂.symm.trans hid₃) (by decide)

end Independence

/-- `create` refuses a layout without replicas. -/
theorem count_pos_of_create {d₀ d₁ : Device} {vmk : Bytes} {options : JvckMetadataOptions} {k₁ k₂ : Fixed 32}
    {vid : Fixed 16} {codec : MetadataCodec} {s : JvckMetadataStore} {L : Layout}
    (hL : L.Of d₀.sectorSize d₀.totalSectors options)
    (hcreate : JvckMetadataStore.create d₀ vmk options k₁ k₂ vid codec = (.ok s, d₁)) : 0 < L.count := by
  apply Nat.pos_of_ne_zero
  intro hzero
  rw [Layout.count, hL.headers, hL.footers] at hzero
  have hnone : options.replicaCount = 0 := by
    apply UInt32.toNat_inj.mp
    rw [JvckMetadataOptions.replicaCount, UInt32.toNat_add, hzero]
    rfl
  rw [JvckMetadataStore.create] at hcreate
  cases hv : options.validate with
  | error e =>
    rw [hv] at hcreate
    cases (Prod.mk.inj hcreate).1
  | ok u =>
    simp only [JvckMetadataOptions.validate, hnone, if_true] at hv
    split at hv <;> cases hv

/-- Whatever was stored and whichever replicas were damaged, opening is independent of the data sectors
exactly when Phase A reads none of them. -/
theorem open_independent_iff (P : Primitives) {d₀ d₁ d d' : Device} {vmk : Bytes} {options : JvckMetadataOptions}
    {k₁ k₂ : Fixed 32} {vid : Fixed 16} (hh : options.useHeader.toNat ≤ 255) (hf : options.useFooter.toNat ≤ 255)
    {s₀ s : JvckMetadataStore}
    (hcreate : JvckMetadataStore.create d₀ vmk options k₁ k₂ vid (jvckCbcCodec P) = (.ok s₀, d₁))
    {ops : List StoreOp} (hrun : StepRun.run step (s₀, d₁) ops = some (s, d)) {L : Layout}
    (hL : L.Of d₀.sectorSize d₀.totalSectors options) {damaged : Nat → Bool}
    (hdamage : DamagedReplicas P L damaged d d') (vmk' : Bytes) :
    (∀ d₂, Frame L.InData d' d₂ → SameOpen P vmk' d' d₂) ↔ ¬ ReadsData P L d' := by
  obtain ⟨L', hL', hrep⟩ := create_represents hh hf hcreate
  obtain rfl : L = L' := hL.unique hL'
  obtain ⟨-, -, -, -, -, -, hsuite, -⟩ := create_spec hh hf hcreate
  obtain ⟨hcodec, -⟩ := Suite.mk.inj hsuite
  have hfin := StepRun.run_simulates (VolumeRecord.apply d₀.ss) step_represents hrep hrun
  obtain ⟨hcodec', -⟩ := Suite.mk.inj hfin.suite
  have hcbc : s.codec = jvckCbcCodec P := Eq.trans hcodec' hcodec
  constructor
  · intro hall hreads
    obtain ⟨d₂, hframe, hne⟩ :=
      not_independent_of_readsData hdamage hfin.synced (count_pos_of_create hL hcreate) hreads vmk'
    exact hne (hall d₂ hframe)
  · intro hsafe d₂ hframe
    exact sameOpen_of_safe hdamage hfin.synced hcbc hsafe hframe vmk'

/-- A volume with two intact footer replicas. -/
theorem open_independent_intact :
    ∃ s₀ d₁, JvckMetadataStore.create (blank 512 1024 (by decide)) [1, 2, 3] ⟨0, 2, 131072⟩
        (List.Vector.replicate 32 1) (List.Vector.replicate 32 2) (List.Vector.replicate 16 9)
        (jvckCbcCodec JvckMetadata.standard) = (.ok s₀, d₁) ∧
      ∀ d₂, Frame twoFooters.InData d₁ d₂ → SameOpen JvckMetadata.standard [1, 2, 3] d₁ d₂ := by
  have hd : Healthy (blank 512 1024 (by decide)) := blank_healthy _
  obtain ⟨s₀, d₁, hcreate, hcodec⟩ := create_cbc (P := JvckMetadata.standard) [1, 2, 3] (List.Vector.replicate 32 1)
    (List.Vector.replicate 32 2) (List.Vector.replicate 16 9) hd (by decide) twoFooters_of
  obtain ⟨L, hL, hsync, hframe, -⟩ := create_spec (by decide) (by decide) hcreate
  obtain rfl : L = twoFooters := hL.unique twoFooters_of
  have hd₁ := hd.frame hframe
  have hdamage : DamagedReplicas JvckMetadata.standard twoFooters (fun _ => false) d₁ d₁ :=
    ⟨rfl, rfl, fun i _ _ => ⟨hd₁.readFault _, rfl⟩, fun _ _ hdam => by cases hdam⟩
  refine ⟨s₀, d₁, hcreate, (open_independent_iff JvckMetadata.standard (by decide) (by decide) hcreate
    (show StepRun.run step (s₀, d₁) [] = some (s₀, d₁) from rfl) twoFooters_of hdamage [1, 2, 3]).mpr ?_⟩
  rintro (⟨hfoot, -⟩ | ⟨-, -, -, hbad, -⟩)
  · cases hfoot
  · have hlast : d₁.sectors - 1 = twoFooters.metaLba 1 := by rw [hframe.sectors]; rfl
    obtain ⟨salt, hseal⟩ := hsync.replicas 1 (by decide)
    have hc : LawfulCodec JvckMetadata.standard s₀.codec := by
      rw [hcodec]
      exact jvckCbcCodec_lawful _
    rw [hlast] at hbad
    exact hbad (JvckMetadata.verifyCrc_of_parse (hc.parse hseal))

/-- The last of two footer replicas is lost: what the user wrote to sector 0 decides what opens. -/
theorem open_depends_on_sector_zero :
    ∃ s₀ d₁ d₂, JvckMetadataStore.create (blank 512 1024 (by decide)) [1, 2, 3] ⟨0, 2, 131072⟩
        (List.Vector.replicate 32 1) (List.Vector.replicate 32 2) (List.Vector.replicate 16 9)
        (jvckCbcCodec JvckMetadata.standard) = (.ok s₀, d₁) ∧
      DamagedReplicas JvckMetadata.standard twoFooters (· == 1) d₁ (wipe d₁ (twoFooters.metaLba 1)) ∧
      Frame twoFooters.InData (wipe d₁ (twoFooters.metaLba 1)) d₂ ∧
      ¬ SameOpen JvckMetadata.standard [1, 2, 3] (wipe d₁ (twoFooters.metaLba 1)) d₂ := by
  have hd : Healthy (blank 512 1024 (by decide)) := blank_healthy _
  obtain ⟨s₀, d₁, hcreate, -⟩ := create_cbc (P := JvckMetadata.standard) [1, 2, 3] (List.Vector.replicate 32 1)
    (List.Vector.replicate 32 2) (List.Vector.replicate 16 9) hd (by decide) twoFooters_of
  obtain ⟨L, hL, hsync, hframe, -⟩ := create_spec (by decide) (by decide) hcreate
  obtain rfl : L = twoFooters := hL.unique twoFooters_of
  have hd₁ := hd.frame hframe
  have hdam := wipe_damage JvckMetadata.standard hframe (j := 1) (by decide)
  have hdamage : DamagedReplicas JvckMetadata.standard twoFooters (· == 1) d₁ (wipe d₁ (twoFooters.metaLba 1)) :=
    ⟨hdam.sectorSize, hdam.totalSectors, hdam.kept, hdam.lost⟩
  have hlast : (wipe d₁ (twoFooters.metaLba 1)).sectors - 1 = twoFooters.metaLba 1 := by
    change d₁.sectors - 1 = _
    rw [hframe.sectors]
    rfl
  have hreads : ReadsData JvckMetadata.standard twoFooters (wipe d₁ (twoFooters.metaLba 1)) := by
    refine .inr ⟨rfl, by decide, hd₁.readFault _, ?_, hd₁.readFault _⟩
    rw [hlast]
    rcases hdam.lost 1 (by decide) rfl with hbad | hbad
    · have hok : d₁.readFault (twoFooters.metaLba 1) = false := hd₁.readFault _
      rw [show (wipe d₁ (twoFooters.metaLba 1)).readFault = d₁.readFault from rfl, hok] at hbad
      cases hbad
    · exact hbad
  obtain ⟨d₂, hf, hne⟩ := not_independent_of_readsData hdamage hsync (by decide) hreads [1, 2, 3]
  exact ⟨s₀, d₁, d₂, hcreate, hdamage, hf, hne⟩

end OpenIndependence
