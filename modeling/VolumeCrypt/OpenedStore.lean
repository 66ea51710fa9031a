import VolumeCrypt.JvckRecovery

/-!
# What opening leaves on the volume

`JvckMetadataReader::open`, `into_store` and `load_offset` read the volume and adopt the
keys and the state of one replica and the largest offset of all. They write nothing, so
replicas that disagreed before an open disagree after it.
-/
namespace OpenedStore

open ByteString ByteMemory VckTypes SectorIo JvckLayout JvckStore JvckReplicas JvckRuns
open JvckMetadata (Primitives JvckHeader JvckSecrets)

/-! ## Opening, backwards -/

section Inversion

variable {P : Primitives} {d : Device} {r : JvckMetadataReader}

/-- The counts of a header never wrap. -/
theorem counts_optionsOf (header : JvckHeader) :
    (JvckMetadataReader.optionsOf header).useHeader.toNat + (JvckMetadataReader.optionsOf header).useFooter.toNat <
      2 ^ 32 := by
  have h₁ := header.headerReplicaCount.toNat_lt
  have h₂ := header.footerReplicaCount.toNat_lt
  simp only [JvckMetadataReader.optionsOf, UInt8.toNat_toUInt32]
  omega

theorem openBlock_inv {block : Fixed 512} (h : openBlock P d block = .ok r) :
    JvckMetadata.parse P block.toList = .ok r.header ∧
      ∃ L : Layout, L.Of d.sectorSize d.totalSectors (JvckMetadataReader.optionsOf r.header) ∧
        r = readerOf r.header L d := by
  rw [openBlock] at h
  cases hp : JvckMetadata.parse P block.toList with
  | error e =>
    rw [hp] at h
    cases h
  | ok header =>
    rw [hp] at h
    change (computeGeometry d.sectorSize d.totalSectors (JvckMetadataReader.optionsOf header) >>= _) = _ at h
    cases hg : computeGeometry d.sectorSize d.totalSectors (JvckMetadataReader.optionsOf header) with
    | error e =>
      rw [hg] at h
      cases h
    | ok g =>
      obtain ⟨L, hL, rfl⟩ := (computeGeometry_ok_iff (counts_optionsOf header)).mp hg
      rw [hg] at h
      obtain rfl := Except.ok.inj h
      exact ⟨rfl, L, hL, rfl⟩

/-- Phase A took the header of a readable block in the last sector or in sector 0. -/
theorem openReader_inv (h : JvckMetadataReader.openReader P d = .ok r) :
    512 ≤ d.ss ∧ 0 < d.sectors ∧
      (∃ lba, (lba = d.sectors - 1 ∨ lba = 0) ∧ d.readFault lba = false ∧
        JvckMetadata.parse P (blockAt d lba).toList = .ok r.header) ∧
      ∃ L : Layout, L.Of d.sectorSize d.totalSectors (JvckMetadataReader.optionsOf r.header) ∧
        r = readerOf r.header L d := by
  have hs : 512 ≤ d.ss := by
    by_contra hlt
    rw [JvckMetadataReader.openReader, if_pos (show d.sectorSize.toNat < 512 from Nat.lt_of_not_le hlt)] at h
    cases h
  have hn : 0 < d.sectors := by
    apply Nat.pos_of_ne_zero
    intro hzero
    have ht : d.totalSectors = 0 := UInt64.toNat_inj.mp hzero
    rw [JvckMetadataReader.openReader, if_neg (show ¬ d.sectorSize.toNat < 512 from Nat.not_lt.mpr hs), if_pos ht] at h
    cases h
  rw [openReader_eq hs hn] at h
  refine ⟨hs, hn, ?_⟩
  split at h
  · cases h
  · rename_i hlast
    split at h
    · obtain ⟨hp, hL⟩ := openBlock_inv h
      exact ⟨⟨_, .inl rfl, by simpa using hlast, hp⟩, hL⟩
    · split at h
      · cases h
      · rename_i hfirst
        split at h
        · obtain ⟨hp, hL⟩ := openBlock_inv h
          exact ⟨⟨_, .inr rfl, by simpa using hfirst, hp⟩, hL⟩
        · cases h

/-- Recovery does not look at the tracked offset. -/
theorem loadOffset_congr {s s' : JvckMetadataStore} (hp : s'.toPlacement = s.toPlacement) (hv : s'.vmk = s.vmk)
    (hh : s'.header = s.header) (hc : s'.codec = s.codec) : s'.loadOffset P d = s.loadOffset P d := by
  have hoff (idx : Nat) (lba : UInt64) : replicaOffset P s' d idx lba = replicaOffset P s d idx lba := by
    simp only [replicaOffset, hp, hv, hh, hc]
  simp only [JvckMetadataStore.loadOffset, loadLoop_eq, hp, hoff]

/-- Phase B adopted the first replica that the selector took, and the largest offset. -/
theorem intoStore_inv {vmk : Bytes} {select : ReplicaCtx → VckResult (MetadataCodec × Unsealed)}
    {s : JvckMetadataStore} (h : r.intoStore P d vmk select = .ok s) :
    ∃ codec u, (r.lbas.zipIdx 0).findSome? (fun x => replicaSelect P r d select x.2 x.1) = some (codec, u) ∧
      s.toPlacement = r.toPlacement ∧ s.vmk = vmk ∧ s.header = r.header ∧ s.secrets = u.secrets ∧
      s.state = u.state.asU16 ∧ s.codec = codec ∧ s.offset = (s.loadOffset P d).toOption.getD u.encryptedOffset := by
  rw [JvckMetadataReader.intoStore] at h
  cases hloop : r.selectLoop P d select 0 none r.lbas with
  | error e =>
    rw [hloop] at h
    cases h
  | ok pair =>
    obtain ⟨codec, u⟩ := pair
    have hfind := selectLoop_eq P r d select 0 none r.lbas
    rw [hloop] at h hfind
    obtain rfl := Except.ok.inj h
    refine ⟨codec, u, hfind.symm, rfl, rfl, rfl, rfl, rfl, rfl, ?_⟩
    simp only
    congr 2
    exact loadOffset_congr rfl rfl rfl rfl

theorem intoStore_ok (vmk : Bytes) {sel : ReplicaCtx → VckResult (MetadataCodec × Unsealed)}
    {pair : MetadataCodec × Unsealed}
    (h : (r.lbas.zipIdx 0).findSome? (fun x => replicaSelect P r d sel x.2 x.1) = some pair) :
    ∃ s, r.intoStore P d vmk sel = .ok s := by
  rw [← selectLoop_eq P r d sel 0 none] at h
  rw [JvckMetadataReader.intoStore]
  cases hloop : r.selectLoop P d sel 0 none r.lbas with
  | error e =>
    rw [hloop] at h
    cases h
  | ok pair' => exact ⟨_, rfl⟩

end Inversion

/-! ## Replicas after an open -/

/-- `open` with the device it leaves behind: it has only read. -/
def openRun (P : Primitives) (d : Device) (vmk : Bytes) : VckResult JvckMetadataStore × Device :=
  (JvckMetadataStore.openStore P d vmk, d)

/-- The offset and state that replica `idx` unseals to, if it can be read and unsealed. -/
def replicaContent (P : Primitives) (s : JvckMetadataStore) (d : Device) (idx : Nat) (lba : UInt64) :
    Option (UInt64 × VolumeState) :=
  match readBlock d s.geometry.sectorSize lba with
  | .error _ => none
  | .ok block =>
    match JvckMetadata.verifyCrc P block.toList with
    | .error _ => none
    | .ok () =>
      (s.codec.unsealPayload (s.ctx s.header d idx block) s.vmk).toOption.map fun u => (u.encryptedOffset, u.state)

/-- Every replica unseals to the offset and the state of the store. -/
def Resynced (P : Primitives) (s : JvckMetadataStore) (d : Device) : Prop :=
  ∀ x ∈ s.lbas.zipIdx 0, replicaContent P s d x.2 x.1 = some (s.offset, VolumeState.fromU16 s.state)

/-- All replicas unseal to one offset and state. -/
def Uniform (P : Primitives) (s : JvckMetadataStore) (d : Device) : Prop :=
  ∃ c, ∀ x ∈ s.lbas.zipIdx 0, replicaContent P s d x.2 x.1 = some c

/-- Two replicas unseal to different values. -/
def Diverged (P : Primitives) (s : JvckMetadataStore) (d : Device) : Prop :=
  ∃ x ∈ s.lbas.zipIdx 0, ∃ y ∈ s.lbas.zipIdx 0, ∃ c c', replicaContent P s d x.2 x.1 = some c ∧
    replicaContent P s d y.2 y.1 = some c' ∧ c ≠ c'

section Resync

variable {P : Primitives} {d : Device} {vmk : Bytes} {s : JvckMetadataStore}

theorem openRun_eq (h : JvckMetadataStore.openStore P d vmk = .ok s) : openRun P d vmk = (.ok s, d) := by
  rw [openRun, h]

theorem Diverged.not_uniform (h : Diverged P s d) : ¬ Uniform P s d := by
  rintro ⟨c, hc⟩
  obtain ⟨x, hx, y, hy, c₁, c₂, h₁, h₂, hne⟩ := h
  rw [hc x hx] at h₁
  rw [hc y hy] at h₂
  exact hne ((Option.some.inj h₁).symm.trans (Option.some.inj h₂))

/-- With the default codec `load_offset` reads the offset that `unseal` returns. -/
theorem replicaOffset_eq_content (hcodec : s.codec = jvckCbcCodec P) (idx : Nat) (lba : UInt64) :
    replicaOffset P s d idx lba = (replicaContent P s d idx lba).map Prod.fst := by
  rw [replicaOffset, replicaContent]
  cases readBlock d s.geometry.sectorSize lba with
  | error e => rfl
  | ok block =>
    simp only
    cases JvckMetadata.verifyCrc P block.toList with
    | error e => rfl
    | ok u =>
      simp only [hcodec]
      change (JvckMetadata.readEncryptedOffset P block.toList s.vmk).toOption = _
      rw [JvckMetadata.readEncryptedOffset]
      change _ = (((JvckMetadata.decryptPayload P block.toList s.vmk >>= _).toOption).map _).map Prod.fst
      cases JvckMetadata.decryptPayload P block.toList s.vmk <;> rfl

/-- The default selector takes a readable CRC-valid replica that unseals. -/
theorem replicaSelect_inv {r : JvckMetadataReader} {idx : Nat} {lba : UInt64} {codec codec' : MetadataCodec}
    {u : Unsealed} (h : replicaSelect P r d (selectWith codec' vmk) idx lba = some (codec, u)) :
    codec = codec' ∧ ∃ block, readBlock d r.geometry.sectorSize lba = .ok block ∧
      JvckMetadata.verifyCrc P block.toList = .ok () ∧
      codec'.unsealPayload (r.ctx r.header d idx block) vmk = .ok u := by
  rw [replicaSelect] at h
  cases hread : readBlock d r.geometry.sectorSize lba with
  | error e =>
    rw [hread] at h
    cases h
  | ok block =>
    rw [hread] at h
    simp only at h
    cases hcrc : JvckMetadata.verifyCrc P block.toList with
    | error e =>
      rw [hcrc] at h
      cases h
    | ok v =>
      rw [hcrc] at h
      simp only [selectWith] at h
      cases hu : codec'.unsealPayload (r.ctx r.header d idx block) vmk with
      | error e =>
        rw [hu] at h
        cases h
      | ok u' =>
        rw [hu] at h
        obtain ⟨rfl, rfl⟩ := Prod.mk.inj (Option.some.inj h)
        exact ⟨rfl, block, rfl, hcrc, hu⟩

/-- The two phases of a successful open. -/
theorem openStore_reader (h : JvckMetadataStore.openStore P d vmk = .ok s) :
    ∃ r, JvckMetadataReader.openReader P d = .ok r ∧ r.intoStore P d vmk (selectWith (jvckCbcCodec P) vmk) = .ok s ∧
      s.toPlacement = r.toPlacement ∧ s.header = r.header := by
  rw [JvckMetadataStore.openStore] at h
  cases hA : JvckMetadataReader.openReader P d with
  | error e =>
    rw [openWith, hA] at h
    cases h
  | ok r =>
    rw [openWith_eq hA] at h
    obtain ⟨codec, u, -, hp, -, hh, -⟩ := intoStore_inv h
    exact ⟨r, rfl, h, hp, hh⟩

/-- What `open` made of the replicas: the state of one of them and an offset that some replica holds and none exceeds. -/
theorem openStore_inv (h : JvckMetadataStore.openStore P d vmk = .ok s) :
    s.codec = jvckCbcCodec P ∧ s.vmk = vmk ∧
      (∃ x ∈ s.lbas.zipIdx 0, ∃ o, replicaContent P s d x.2 x.1 = some (o, VolumeState.fromU16 s.state)) ∧
      IsLargest s.offset ((s.lbas.zipIdx 0).filterMap fun x => (replicaContent P s d x.2 x.1).map Prod.fst) := by
  obtain ⟨r, -, hinto, -⟩ := openStore_reader h
  obtain ⟨codec, u, hfind, hp, hv, hh, -, hst, hc, hoff⟩ := intoStore_inv hinto
  obtain ⟨x, hx, hsel⟩ := List.exists_of_findSome?_eq_some hfind
  obtain ⟨rfl, block, hread, hcrc, hu⟩ := replicaSelect_inv hsel
  have hmem : x ∈ s.lbas.zipIdx 0 := by
    rw [hp]
    exact hx
  have hcontent : replicaContent P s d x.2 x.1 = some (u.encryptedOffset, u.state) := by
    rw [replicaContent, hp, hread]
    simp only [hcrc, hc, hh, hv, hu]
    rfl
  refine ⟨hc, hv, ⟨x, hmem, u.encryptedOffset, ?_⟩, ?_⟩
  · rw [hst, VolumeState.fromU16_asU16]
    exact hcontent
  · have hlist : (s.lbas.zipIdx 0).filterMap (fun x => replicaOffset P s d x.2 x.1) =
        (s.lbas.zipIdx 0).filterMap fun x => (replicaContent P s d x.2 x.1).map Prod.fst :=
      List.filterMap_congr fun y _ => replicaOffset_eq_content hc y.2 y.1
    have hne : (s.lbas.zipIdx 0).filterMap (fun x => (replicaContent P s d x.2 x.1).map Prod.fst) ≠ [] := by
      apply List.ne_nil_of_mem (a := u.encryptedOffset)
      rw [List.mem_filterMap]
      exact ⟨x, hmem, by rw [hcontent]; rfl⟩
    obtain ⟨m, hm, hlargest⟩ := foldl_better_none hne
    rw [hoff, JvckMetadataStore.loadOffset, loadLoop_eq, hlist, hm]
    exact hlargest

/-- After an open every replica unseals to the adopted values exactly when all did so before. -/
theorem resynced_iff_uniform (h : JvckMetadataStore.openStore P d vmk = .ok s) :
    Resynced P s d ↔ Uniform P s d := by
  constructor
  · intro hs
    exact ⟨_, hs⟩
  · rintro ⟨c, hc⟩
    obtain ⟨-, -, ⟨x, hx, o, hstate⟩, hmem, -⟩ := openStore_inv h
    obtain ⟨y, hy, hoff⟩ := List.mem_filterMap.mp hmem
    rw [hc y hy] at hoff
    rw [hc x hx] at hstate
    have h₁ : c.1 = s.offset := Option.some.inj hoff
    have h₂ : c.2 = VolumeState.fromU16 s.state := congrArg Prod.snd (Option.some.inj hstate)
    intro z hz
    rw [hc z hz, ← h₁, ← h₂]

/-- Opening re-synchronises no replica: it leaves every replica with the adopted values exactly when they had one
common value before, and never when two of them differed. -/
theorem open_resyncs_iff {d' : Device} (h : openRun P d vmk = (.ok s, d')) :
    (Resynced P s d' ↔ Uniform P s d) ∧ (Diverged P s d → ¬ Resynced P s d') := by
  obtain ⟨hopen, rfl⟩ := Prod.mk.inj h
  have hiff := resynced_iff_uniform hopen
  exact ⟨hiff, fun hdiv hs => hdiv.not_uniform (hiff.mp hs)⟩

/-- Sealed replicas have the content they were sealed with. -/
theorem replicaContent_of_holds {K : Suite} {L : Layout} {content : Nat → Option (UInt64 × VolumeState)}
    (hc : LawfulCodec P K.codec) (hon : On s.toPlacement L d) (hcodec : s.codec = K.codec)
    (hheader : s.header = K.header) (hvmk : s.vmk = K.vmk) (h : K.Holds P L d content) {i : Nat} (hi : i < L.count) :
    replicaContent P s d i (UInt64.ofNat (L.metaLba i)) = content i := by
  rw [replicaContent]
  obtain ⟨o, st, hcon, ⟨salt, hs⟩, hread, hv⟩ | ⟨hcon, e, hread⟩ | ⟨hcon, hread, e, hv⟩ := h.inspect hc hon hi
  · have hu := hc.unsealed hs (s.ctx s.header d i (blockAt d (L.metaLba i))) hheader rfl
    simp only [hread, hv, hcodec, hvmk, hu, hcon]
    rfl
  · rw [hread, hcon]
  · simp only [hread, hv, hcon]

/-- The second of two footer replicas has its block in the last sector. -/
theorem intact_last {K : Suite} {content : Nat → Option (UInt64 × VolumeState)} {o : JvckMetadataOptions}
    (hL : twoFooters.Of d.sectorSize d.totalSectors o) (h : K.Holds P twoFooters d content)
    {c₁ : UInt64 × VolumeState} (h₁ : content 1 = some c₁) : K.Intact d (d.sectors - 1) c₁.1 c₁.2 := by
  have hone := h 1 (by decide)
  have htot : twoFooters.total = d.sectors := hL.total
  rw [h₁] at hone
  rw [← htot]
  exact hone

/-- Opening a volume of two footer replicas sealed with the default suite. -/
theorem open_twoFooters {K : Suite} {content : Nat → Option (UInt64 × VolumeState)} (hK : K.codec = jvckCbcCodec P)
    (hL : twoFooters.Of d.sectorSize d.totalSectors (JvckMetadataReader.optionsOf K.header))
    (h : K.Holds P twoFooters d content) {c₀ c₁ : UInt64 × VolumeState} (h₀ : content 0 = some c₀)
    (h₁ : content 1 = some c₁) :
    ∃ s, JvckMetadataStore.openStore P d K.vmk = .ok s ∧
      s.lbas.zipIdx 0 = [(UInt64.ofNat (twoFooters.metaLba 0), 0), (UInt64.ofNat (twoFooters.metaLba 1), 1)] ∧
      replicaContent P s d 0 (UInt64.ofNat (twoFooters.metaLba 0)) = some c₀ ∧
      replicaContent P s d 1 (UInt64.ofNat (twoFooters.metaLba 1)) = some c₁ := by
  have hc : LawfulCodec P K.codec := by
    rw [hK]
    exact jvckCbcCodec_lawful P
  have hlast := intact_last hL h h₁
  have hfirst : (List.range twoFooters.count).findSome? content = some (c₀.1, c₀.2) := by
    change [0, 1].findSome? content = _
    simp [h₀]
  obtain ⟨m, -, hstore⟩ := intoStore_of_holds hc (readerOf_on hL) rfl h hfirst
  have hon : On (readerOf K.header twoFooters d).toPlacement twoFooters d := readerOf_on hL
  rw [← openWith_eq (openReader_of_last hc hL hlast)] at hstore
  refine ⟨_, (by rw [JvckMetadataStore.openStore, ← hK]; exact hstore), ?_, ?_, ?_⟩
  · exact zipIdx_lbas hon
  · rw [← h₀]
    exact replicaContent_of_holds hc hon rfl rfl rfl h (by decide)
  · rw [← h₁]
    exact replicaContent_of_holds hc hon rfl rfl rfl h (by decide)

/-- A volume whose two replicas agree is found in that state. -/
theorem agreeing_replicas_resynced :
    ∃ s, openRun JvckMetadata.standard (JvckRecovery.sampleDevice 5 .encrypt) [1, 2, 3] =
        (.ok s, JvckRecovery.sampleDevice 5 .encrypt) ∧
      Resynced JvckMetadata.standard s (JvckRecovery.sampleDevice 5 .encrypt) := by
  obtain ⟨hsync, -⟩ := JvckRecovery.sampleDevice_synced 5 .encrypt
  have hholds := JvckRecovery.sampleDevice_holds 5 .encrypt
  obtain ⟨s, hopen, hlbas, h₀, h₁⟩ := open_twoFooters rfl hsync.layoutOf hholds rfl rfl
  have hrun := openRun_eq hopen
  refine ⟨s, hrun, (open_resyncs_iff hrun).1.mpr ⟨(5, .encrypt), ?_⟩⟩
  rw [hlbas]
  simp [h₀, h₁]

/-- A store of offset 10 that was cut off behind the first of two replicas: opening adopts 10 and leaves 5 in the
second one. -/
theorem cut_off_store_stays_diverged :
    ∃ s, openRun JvckMetadata.standard (JvckRecovery.sampleCut 5 .encrypt 10) [1, 2, 3] =
        (.ok s, JvckRecovery.sampleCut 5 .encrypt 10) ∧
      Diverged JvckMetadata.standard s (JvckRecovery.sampleCut 5 .encrypt 10) ∧
      ¬ Resynced JvckMetadata.standard s (JvckRecovery.sampleCut 5 .encrypt 10) := by
  obtain ⟨hsync, -⟩ := JvckRecovery.sampleDevice_synced 5 .encrypt
  obtain ⟨hcut, hd⟩ := JvckRecovery.sampleCut_eq 5 .encrypt 10
  have hholds := JvckRecovery.storeCutOff_holds (P := JvckMetadata.standard) hsync hcut fun i _ => hd.readFault _
  obtain ⟨hframe, -⟩ := writeReplicas_spec
    (s := { JvckRecovery.sampleStore 5 .encrypt with offset := 10 }) hsync.on hcut
  have hL : twoFooters.Of (JvckRecovery.sampleCut 5 .encrypt 10).sectorSize
      (JvckRecovery.sampleCut 5 .encrypt 10).totalSectors
      (JvckMetadataReader.optionsOf (suiteOf (JvckRecovery.sampleStore 5 .encrypt)).header) :=
    (hsync.on.frame hframe).layout
  obtain ⟨s, hopen, hlbas, h₀, h₁⟩ := open_twoFooters rfl hL hholds
    (show _ = some ((10 : UInt64), VolumeState.encrypt) from rfl)
    (show _ = some ((5 : UInt64), VolumeState.encrypt) from rfl)
  have hdiv : Diverged JvckMetadata.standard s (JvckRecovery.sampleCut 5 .encrypt 10) := by
    rw [Diverged, hlbas]
    exact ⟨_, List.mem_cons_self, _, List.mem_cons_of_mem _ List.mem_cons_self, _, _, h₀, h₁, by simp⟩
  exact ⟨s, openRun_eq hopen, hdiv, fun hs => hdiv.not_uniform ((resynced_iff_uniform hopen).mp hs)⟩

end Resync

end OpenedStore
