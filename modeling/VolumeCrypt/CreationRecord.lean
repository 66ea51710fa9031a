import VolumeCrypt.JvckRuns
import VolumeCrypt.SdkEnsure

/-!
# What creation records about its layout

`JvckMetadataStore::create` and the SDK's `EnsureJvckMetadata` lay the replicas out with
32-bit counts and record these counts in a header of one byte each. A volume is opened
from the header alone, so what the header says has to be what creation did.
-/
namespace CreationRecord

open ByteString ByteMemory VckTypes SectorIo JvckLayout JvckStore JvckReplicas SdkEnsure
open JvckMetadata (Primitives JvckHeader JvckSecrets)

/-! ## The writes of `create` -/

/-- The sector that `write_block` puts around a block. -/
def blockSector (sectorSize : UInt32) (block : Fixed 512) : Bytes :=
  copyAt (List.replicate sectorSize.toNat 0) 0 block.toList

/-- The writes that the replica loop completes. -/
def blocksLog (sectorSize : UInt32) (block : Fixed 512) (d : Device) : List UInt64 → WriteLog
  | [] => []
  | lba :: lbas =>
    match writeBlock d sectorSize lba block with
    | (.error _, _) => []
    | (.ok (), d') => (lba.toNat * d.ss, blockSector sectorSize block) :: blocksLog sectorSize block d' lbas

/-- The replica sectors of these options on this device. -/
def replicaLbas (d : Device) (o : JvckMetadataOptions) : List UInt64 :=
  metadataSectorLbas d.totalSectors (replicaSectors o.metadataSize d.sectorSize) o.useHeader o.useFooter

/-- The writes that `create` completes. -/
def createLog (d : Device) (vmk : Bytes) (options : JvckMetadataOptions) (fvekKey1 fvekKey2 : Fixed 32)
    (volumeId : Fixed 16) (codec : MetadataCodec) : WriteLog :=
  match options.validate with
  | .error _ => []
  | .ok () =>
    match computeGeometry d.sectorSize d.totalSectors options with
    | .error _ => []
    | .ok _ =>
      match fillRandom d with
      | (.error _, _) => []
      | (.ok salt, d') =>
        match codec.sealPayload (newHeader d.sectorSize options volumeId) ⟨fvekKey1, fvekKey2⟩ 0 .encrypt salt vmk with
        | .error _ => []
        | .ok block => blocksLog d.sectorSize block d' (replicaLbas d options)

theorem writeBlock_cases (d : Device) (sectorSize : UInt32) (lba : UInt64) (block : Fixed 512) :
    writeBlock d sectorSize lba block =
        (.ok (), { d with bytes := save d.bytes (lba.toNat * d.ss) (blockSector sectorSize block) }) ∨
      ∃ e, writeBlock d sectorSize lba block = (.error e, d) := by
  rcases writeSectors_cases d lba (blockSector sectorSize block) with h | h
  · exact .inl h
  · exact .inr ⟨_, h⟩

/-- The loop changes the bytes by its log. -/
theorem writeBlocks_bytes (sectorSize : UInt32) (block : Fixed 512) (d : Device) (lbas : List UInt64) :
    (JvckMetadataStore.writeBlocks sectorSize block d lbas).2.bytes =
      replay d.bytes (blocksLog sectorSize block d lbas) := by
  induction lbas generalizing d with
  | nil => rfl
  | cons lba lbas ih =>
    rw [JvckMetadataStore.writeBlocks, blocksLog]
    rcases writeBlock_cases d sectorSize lba block with h | ⟨e, h⟩
    · simp only [h]
      rw [ih]
      rfl
    · simp only [h]
      rfl

/-- An empty log of a non-empty loop comes with an error. -/
theorem writeBlocks_of_log_nil {sectorSize : UInt32} {block : Fixed 512} {d : Device} {lbas : List UInt64}
    (hne : lbas ≠ []) (hlog : blocksLog sectorSize block d lbas = []) :
    ∃ e, (JvckMetadataStore.writeBlocks sectorSize block d lbas).1 = .error e := by
  cases lbas with
  | nil => exact absurd rfl hne
  | cons lba lbas =>
    rw [blocksLog] at hlog
    rw [JvckMetadataStore.writeBlocks]
    rcases writeBlock_cases d sectorSize lba block with h | ⟨e, h⟩
    · simp only [h] at hlog
      cases hlog
    · exact ⟨e, by rw [h]⟩

theorem blocksLog_sector (sectorSize : UInt32) (block : Fixed 512) (d : Device) (lbas : List UInt64) :
    ∀ e ∈ blocksLog sectorSize block d lbas, e.2 = blockSector sectorSize block := by
  induction lbas generalizing d with
  | nil => simp [blocksLog]
  | cons lba lbas ih =>
    rw [blocksLog]
    rcases writeBlock_cases d sectorSize lba block with h | ⟨e, h⟩
    · simp only [h, List.mem_cons, forall_eq_or_imp, true_and]
      exact ih _
    · simp [h]

/-! ## Recorded layouts -/

/-- The header in a sector gives the geometry and the replica sectors of these options. -/
def Records (P : Primitives) (sectorSize : UInt32) (volumeSectors : UInt64) (o : JvckMetadataOptions)
    (sector : Bytes) : Prop :=
  ∃ header g, JvckMetadata.parse P (slice sector 0 512) = .ok header ∧
    computeGeometry sectorSize volumeSectors o = .ok g ∧
    computeGeometry sectorSize volumeSectors (JvckMetadataReader.optionsOf header) = .ok g ∧
    metadataSectorLbas volumeSectors (replicaSectors header.metadataSize sectorSize)
        (JvckMetadataReader.optionsOf header).useHeader (JvckMetadataReader.optionsOf header).useFooter =
      metadataSectorLbas volumeSectors (replicaSectors o.metadataSize sectorSize) o.useHeader o.useFooter

/-- A run either created nothing and wrote nothing, or every sector that it wrote records the layout it used. -/
def RecordsLayout (P : Primitives) (sectorSize : UInt32) (volumeSectors : UInt64) (o : JvckMetadataOptions)
    (created : Prop) (log : WriteLog) : Prop :=
  (¬ created ∧ log = []) ∨ (log ≠ [] ∧ ∀ e ∈ log, Records P sectorSize volumeSectors o e.2)

/-- Both counts fit the byte that records them. -/
def CountsFit (o : JvckMetadataOptions) : Prop := o.useHeader.toNat < 256 ∧ o.useFooter.toNat < 256

theorem optionsOf_newHeader (sectorSize : UInt32) {o : JvckMetadataOptions} (volumeId : Fixed 16) (h : CountsFit o) :
    JvckMetadataReader.optionsOf (newHeader sectorSize o volumeId) = o := by
  have h₁ := JvckRuns.toUInt32_toUInt8 (n := o.useHeader) (Nat.le_of_lt_succ h.1)
  have h₂ := JvckRuns.toUInt32_toUInt8 (n := o.useFooter) (Nat.le_of_lt_succ h.2)
  simp only [JvckMetadataReader.optionsOf, newHeader, h₁, h₂]

theorem toNat_narrowed (n : UInt32) : n.toUInt8.toUInt32.toNat = n.toNat % 256 := by
  rw [UInt8.toNat_toUInt32, UInt32.toNat_toUInt8]

/-- The narrowed counts give the same geometry only if they lost nothing. -/
theorem countsFit_of_geometry {sectorSize : UInt32} {volumeSectors : UInt64} {o : JvckMetadataOptions}
    {volumeId : Fixed 16} {g : Geometry} (hg : computeGeometry sectorSize volumeSectors o = .ok g)
    (hg' : computeGeometry sectorSize volumeSectors
      (JvckMetadataReader.optionsOf (newHeader sectorSize o volumeId)) = .ok g) : CountsFit o := by
  obtain ⟨hoff, hdata, hfit⟩ := toNat_geometry hg
  obtain ⟨hoff', hdata', hfit'⟩ := toNat_geometry hg'
  obtain ⟨_, hpos, _⟩ := computeGeometry_inv hg
  simp only [JvckMetadataReader.optionsOf, newHeader, toNat_narrowed] at hoff' hdata' hfit'
  have huh := o.useHeader.toNat_lt
  have huf := o.useFooter.toNat_lt
  generalize o.metadataSize.toNat / sectorSize.toNat = rs at hpos hoff hoff' hdata hdata' hfit hfit'
  have hheader : o.useHeader.toNat = o.useHeader.toNat % 256 := Nat.eq_of_mul_eq_mul_right hpos (hoff.symm.trans hoff')
  have hcount : (o.useHeader.toNat + o.useFooter.toNat) % 2 ^ 32 * rs =
      (o.useHeader.toNat % 256 + o.useFooter.toNat % 256) % 2 ^ 32 * rs := by omega
  have hcounts := Nat.eq_of_mul_eq_mul_right hpos hcount
  exact ⟨by omega, by omega⟩

/-- A sector with the new header records the layout exactly when the counts fit. -/
theorem records_iff {P : Primitives} {sectorSize : UInt32} {volumeSectors : UInt64} {o : JvckMetadataOptions}
    {volumeId : Fixed 16} {sector : Bytes} {g : Geometry} (hg : computeGeometry sectorSize volumeSectors o = .ok g)
    (hp : JvckMetadata.parse P (slice sector 0 512) = .ok (newHeader sectorSize o volumeId)) :
    Records P sectorSize volumeSectors o sector ↔ CountsFit o := by
  constructor
  · rintro ⟨header, g', hp', h₁, h₂, _⟩
    obtain rfl := Except.ok.inj (hp.symm.trans hp')
    obtain rfl := Except.ok.inj (hg.symm.trans h₁)
    exact countsFit_of_geometry hg h₂
  · intro hc
    have ho := optionsOf_newHeader sectorSize volumeId hc
    refine ⟨_, g, hp, hg, ?_, ?_⟩
    · rw [ho]
      exact hg
    · rw [ho]
      rfl

/-- A run that wrote at least one sector records its layout exactly when the counts fit. -/
theorem recordsLayout_iff_of_log {P : Primitives} {sectorSize : UInt32} {volumeSectors : UInt64}
    {o : JvckMetadataOptions} {volumeId : Fixed 16} {sector : Bytes} {g : Geometry} {created : Prop} {log : WriteLog}
    (hg : computeGeometry sectorSize volumeSectors o = .ok g)
    (hp : JvckMetadata.parse P (slice sector 0 512) = .ok (newHeader sectorSize o volumeId)) (hne : log ≠ [])
    (hlog : ∀ e ∈ log, e.2 = sector) :
    RecordsLayout P sectorSize volumeSectors o created log ↔ CountsFit o := by
  have hiff := records_iff hg hp
  constructor
  · rintro (⟨_, h⟩ | ⟨_, h⟩)
    · exact absurd h hne
    · obtain ⟨e, he⟩ := List.exists_mem_of_ne_nil log hne
      have hr := h e he
      rw [hlog e he] at hr
      exact hiff.mp hr
  · intro hc
    refine .inr ⟨hne, ?_⟩
    intro e he
    rw [hlog e he]
    exact hiff.mpr hc

/-- Valid options name at least one replica sector. -/
theorem replicaLbas_ne_nil {o : JvckMetadataOptions} (hv : o.validate = .ok ()) (d : Device) :
    replicaLbas d o ≠ [] := by
  intro hnil
  have hlen := congrArg List.length hnil
  simp only [replicaLbas, metadataSectorLbas, List.length_append, List.length_map, List.length_range, List.length_nil] at hlen
  have hh : o.useHeader = 0 := UInt32.toNat_inj.mp (by change _ = 0; omega)
  have hf : o.useFooter = 0 := UInt32.toNat_inj.mp (by change _ = 0; omega)
  rw [JvckMetadataOptions.validate, JvckMetadataOptions.replicaCount, hh, hf] at hv
  split at hv
  · cases hv
  · rw [if_pos (by decide)] at hv
    cases hv

/-! ## `create` -/

/-- `create` stops before its first write, or at it. -/
def CreateRefused (d : Device) (vmk : Bytes) (options : JvckMetadataOptions) (fvekKey1 fvekKey2 : Fixed 32)
    (volumeId : Fixed 16) (codec : MetadataCodec) : Prop :=
  options.validate ≠ .ok () ∨ (∀ g, computeGeometry d.sectorSize d.totalSectors options ≠ .ok g) ∨
    (∀ salt block, (fillRandom d).1 = .ok salt →
      codec.sealPayload (newHeader d.sectorSize options volumeId) ⟨fvekKey1, fvekKey2⟩ 0 .encrypt salt vmk ≠
        .ok block) ∨
    ∀ lba, (replicaLbas d options).head? = some lba → ¬ Reachable d d.writeFault lba.toNat 1

section Create

variable {P : Primitives} {codec : MetadataCodec} {d : Device} {vmk : Bytes} {options : JvckMetadataOptions}
  {k₁ k₂ : Fixed 32} {vid : Fixed 16}

theorem length_blockSector {sectorSize : UInt32} (hs : 512 ≤ sectorSize.toNat) (block : Fixed 512) :
    (blockSector sectorSize block).length = sectorSize.toNat := by
  rw [blockSector, length_copyAt, List.length_replicate]
  rw [List.length_replicate, List.Vector.toList_length]
  exact hs

theorem slice_blockSector (sectorSize : UInt32) (block : Fixed 512) :
    slice (blockSector sectorSize block) 0 512 = block.toList :=
  slice_copyAt_same (Nat.zero_le _) (List.Vector.toList_length _)

/-- The loop writes something exactly when its first sector can be written. -/
theorem blocksLog_cons_ne_nil (hs : 512 ≤ d.ss) (lba : UInt64) (block : Fixed 512) (lbas : List UInt64) :
    blocksLog d.sectorSize block d (lba :: lbas) ≠ [] ↔ Reachable d d.writeFault lba.toNat 1 := by
  have hlen : (blockSector d.sectorSize block).length = 1 * d.ss := by
    rw [length_blockSector hs, Nat.one_mul]
    rfl
  rw [blocksLog]
  by_cases hr : Reachable d d.writeFault lba.toNat 1
  · have hw : writeBlock d d.sectorSize lba block = _ := writeSectors_of_reachable (by omega) hlen hr
    rw [hw]
    simp [hr]
  · have hw : writeBlock d d.sectorSize lba block = _ := writeSectors_of_not_reachable (by omega) hlen hr
    rw [hw]
    simp [hr]

/-- Past its checks `create` draws a salt, seals and runs the write loop. -/
theorem create_eq (vmk : Bytes) (k₁ k₂ : Fixed 32) (vid : Fixed 16) (codec : MetadataCodec) {g : Geometry}
    (hv : options.validate = .ok ()) (hg : computeGeometry d.sectorSize d.totalSectors options = .ok g) :
    ∃ s, JvckMetadataStore.create d vmk options k₁ k₂ vid codec =
      match fillRandom d with
      | (.error e, d) => (.error e, d)
      | (.ok salt, d') =>
        match codec.sealPayload (newHeader d.sectorSize options vid) ⟨k₁, k₂⟩ 0 .encrypt salt vmk with
        | .error e => (.error e, d')
        | .ok block =>
          match JvckMetadataStore.writeBlocks d.sectorSize block d' (replicaLbas d options) with
          | (.error e, d) => (.error e, d)
          | (.ok (), d) => (.ok s, d) := by
  have hsize : g.sectorSize = d.sectorSize := by
    simp only [computeGeometry] at hg
    split at hg
    · cases hg
    · split at hg
      · cases hg
      · split at hg <;> cases hg
        rfl
  rw [JvckMetadataStore.create, hv, hg]
  simp only
  generalize hs : JvckMetadataStore.mk _ _ _ _ _ _ _ = s
  have hlbas : s.lbas = replicaLbas d options := by
    rw [← hs, Placement.lbas, Placement.rs, replicaLbas, hsize]
  have hseal (salt : Fixed 16) : s.sealBlock salt =
      codec.sealPayload (newHeader d.sectorSize options vid) ⟨k₁, k₂⟩ 0 .encrypt salt vmk := by
    rw [← hs]
    rfl
  have hgeo : s.geometry.sectorSize = d.sectorSize := by rw [← hs, hsize]
  refine ⟨s, ?_⟩
  rw [JvckMetadataStore.writeAllReplicas, JvckMetadataStore.writeReplicas, List.take_length, hlbas, hgeo]
  generalize fillRandom d = f
  obtain ⟨r, d'⟩ := f
  cases r with
  | error e => rfl
  | ok salt =>
    simp only [hseal]
    cases codec.sealPayload (newHeader d.sectorSize options vid) ⟨k₁, k₂⟩ 0 .encrypt salt vmk with
    | error e => rfl
    | ok block => rfl

/-- The log is what `create` did to the device. -/
theorem create_bytes (d : Device) (vmk : Bytes) (options : JvckMetadataOptions) (k₁ k₂ : Fixed 32) (vid : Fixed 16)
    (codec : MetadataCodec) :
    (JvckMetadataStore.create d vmk options k₁ k₂ vid codec).2.bytes =
      replay d.bytes (createLog d vmk options k₁ k₂ vid codec) := by
  rw [createLog]
  cases hv : options.validate with
  | error e => rw [JvckMetadataStore.create, hv]; rfl
  | ok u =>
    cases hg : computeGeometry d.sectorSize d.totalSectors options with
    | error e => rw [JvckMetadataStore.create, hv, hg]; rfl
    | ok g =>
      obtain ⟨s, hc⟩ := create_eq vmk k₁ k₂ vid codec hv hg
      rw [hc]
      have hfill : (fillRandom d).2.bytes = d.bytes := rfl
      generalize fillRandom d = f at hfill
      obtain ⟨r, d'⟩ := f
      cases r with
      | error e => exact hfill
      | ok salt =>
        simp only at hfill ⊢
        cases codec.sealPayload (newHeader d.sectorSize options vid) ⟨k₁, k₂⟩ 0 .encrypt salt vmk with
        | error e => exact hfill
        | ok block =>
          have hb := writeBlocks_bytes d.sectorSize block d' (replicaLbas d options)
          rw [hfill] at hb
          simp only
          rw [← hb]
          generalize JvckMetadataStore.writeBlocks d.sectorSize block d' (replicaLbas d options) = w
          obtain ⟨r, d''⟩ := w
          cases r <;> rfl

/-- The write loop records the layout exactly when its first write fails or both counts fit. -/
theorem loop_records_iff {g : Geometry} {block : Fixed 512} {created : Prop} (hv : options.validate = .ok ())
    (hg : computeGeometry d.sectorSize d.totalSectors options = .ok g)
    (hp : JvckMetadata.parse P block.toList = .ok (newHeader d.sectorSize options vid))
    (hcreated : created →
      (JvckMetadataStore.writeBlocks d.sectorSize block (fillRandom d).2 (replicaLbas d options)).1 = .ok ()) :
    RecordsLayout P d.sectorSize d.totalSectors options created
        (blocksLog d.sectorSize block (fillRandom d).2 (replicaLbas d options)) ↔
      (∀ lba, (replicaLbas d options).head? = some lba → ¬ Reachable d d.writeFault lba.toNat 1) ∨
        CountsFit options := by
  have hs : 512 ≤ d.ss := (computeGeometry_inv hg).1
  have hne := replicaLbas_ne_nil hv d
  obtain ⟨lba, lbas, hlbas⟩ := List.exists_cons_of_ne_nil hne
  have hlog : blocksLog d.sectorSize block (fillRandom d).2 (replicaLbas d options) ≠ [] ↔
      Reachable d d.writeFault lba.toNat 1 := by
    rw [hlbas]
    exact blocksLog_cons_ne_nil (d := (fillRandom d).2) hs lba block lbas
  have hhead : (∀ lba, (replicaLbas d options).head? = some lba → ¬ Reachable d d.writeFault lba.toNat 1) ↔
      ¬ Reachable d d.writeFault lba.toNat 1 := by
    rw [hlbas]
    simp
  rw [hhead]
  by_cases hr : Reachable d d.writeFault lba.toNat 1
  · have hparse : JvckMetadata.parse P (slice (blockSector d.sectorSize block) 0 512) =
        .ok (newHeader d.sectorSize options vid) := by
      rw [slice_blockSector]
      exact hp
    rw [recordsLayout_iff_of_log hg hparse (hlog.mpr hr) (blocksLog_sector d.sectorSize block _ _)]
    simp [hr]
  · have hnil := not_ne_iff.mp (mt hlog.mp hr)
    obtain ⟨e, he⟩ := writeBlocks_of_log_nil hne hnil
    refine iff_of_true (.inl ⟨?_, hnil⟩) (.inl hr)
    intro hok
    rw [hcreated hok] at he
    cases he

/-- `create` records its layout exactly when it writes nothing or both counts fit a byte. -/
theorem create_records_iff (hc : LawfulCodec P codec) :
    RecordsLayout P d.sectorSize d.totalSectors options
        (∃ s, (JvckMetadataStore.create d vmk options k₁ k₂ vid codec).1 = .ok s)
        (createLog d vmk options k₁ k₂ vid codec) ↔
      CreateRefused d vmk options k₁ k₂ vid codec ∨ CountsFit options := by
  rw [createLog, CreateRefused]
  cases hv : options.validate with
  | error e =>
    refine iff_of_true (.inl ⟨?_, rfl⟩) (.inl (.inl (by simp)))
    rw [JvckMetadataStore.create, hv]
    simp
  | ok u =>
    cases hg : computeGeometry d.sectorSize d.totalSectors options with
    | error e =>
      refine iff_of_true (.inl ⟨?_, rfl⟩) (.inl (.inr (.inl (by simp))))
      rw [JvckMetadataStore.create, hv, hg]
      simp
    | ok g =>
      obtain ⟨s, hcreate⟩ := create_eq vmk k₁ k₂ vid codec hv hg
      rw [hcreate]
      cases hsalt : (fillRandom d).1 with
      | error e =>
        have hfill : fillRandom d = (.error e, (fillRandom d).2) := Prod.ext hsalt rfl
        rw [hfill]
        exact iff_of_true (.inl ⟨by simp, rfl⟩) (.inl (.inr (.inr (.inl (by simp)))))
      | ok salt =>
        have hfill : fillRandom d = (.ok salt, (fillRandom d).2) := Prod.ext hsalt rfl
        rw [hfill]
        simp only
        cases hseal : codec.sealPayload (newHeader d.sectorSize options vid) ⟨k₁, k₂⟩ 0 .encrypt salt vmk with
        | error e =>
          refine iff_of_true (.inl ⟨by simp, rfl⟩) (.inl (.inr (.inr (.inl ?_))))
          intro salt' block hok
          obtain rfl := Except.ok.inj hok
          rw [hseal]
          simp
        | ok block =>
          simp only
          rw [loop_records_iff hv hg (hc.parse hseal)]
          · constructor
            · rintro (h | h)
              · exact .inl (.inr (.inr (.inr h)))
              · exact .inr h
            · rintro ((h | h | h | h) | h)
              · exact absurd rfl h
              · exact absurd rfl (h g)
              · exact absurd hseal (h salt block rfl)
              · exact .inl h
              · exact .inr h
          · generalize JvckMetadataStore.writeBlocks d.sectorSize block (fillRandom d).2 (replicaLbas d options) = w
            obtain ⟨r, d'⟩ := w
            cases r with
            | error e => simp
            | ok u => simp

end Create

/-! ## `EnsureJvckMetadata` -/

/-- A call stops before its first write, or at it. -/
def EnsureRefused (P : Primitives) (env : Env) (d : Device) (o : JvckMetadataOptions) : Prop :=
  ensureChecks env.handle d.sectorSize d.totalSectors o ≠ .ok () ∨
    (∀ last, readSectorAt d (lastSectorOffset d.totalSectors d.sectorSize) d.sectorSize.toNat = .ok last →
      SdkMetadata.verifyMetadataCRC P last = true) ∨
    (∀ x, env.entropy ≠ .ok x) ∨
    ∀ lba, (replicaLbas d o).head? = some lba →
      (writeSectorAt d (lba * d.sectorSize.toUInt64) (List.replicate d.sectorSize.toNat 0)).1 ≠ .ok ()

section Ensure

variable {P : Primitives} {env : Env} {d : Device} {vmk : Bytes} {o : JvckMetadataOptions}

/-- Whether a write succeeds depends on the length of its buffer only. -/
theorem writeSectorAt_congr {offset : UInt64} {a b : Bytes} (h : a.length = b.length) :
    (writeSectorAt d offset a).1 = (writeSectorAt d offset b).1 := by
  rw [writeSectorAt, writeSectorAt, h]
  split <;> rfl

/-- The loop writes something exactly when its first sector can be written; otherwise it fails. -/
theorem writeEach_cons (sector : Bytes) (d : Device) (lba : UInt64) (lbas : List UInt64) :
    ((writeSectorAt d (lba * d.sectorSize.toUInt64) sector).1 = .ok () →
      (writeEach sector d (lba :: lbas)).2.2 ≠ []) ∧
    ((writeSectorAt d (lba * d.sectorSize.toUInt64) sector).1 ≠ .ok () →
      (writeEach sector d (lba :: lbas)).2.2 = [] ∧ (writeEach sector d (lba :: lbas)).1 ≠ .ok ()) := by
  rw [writeEach]
  rcases writeSectorAt_cases d (lba * d.sectorSize.toUInt64) sector with h | h
  · simp [h]
  · simp [h]

/-- A call records its layout exactly when it writes nothing or both counts fit a byte. -/
theorem ensure_records_iff :
    RecordsLayout P d.sectorSize d.totalSectors o ((ensureJvckMetadata P env d vmk o).1 = .ok true)
        (ensureJvckMetadata P env d vmk o).2.2 ↔
      EnsureRefused P env d o ∨ CountsFit o := by
  rcases ensure_cases P env d vmk o with ⟨hwhy, e, he⟩ | ⟨last, _, hread, hv, he⟩ |
    ⟨last, k₁, k₂, vid, salt, hchk, hread, hv, hent, he⟩
  · refine iff_of_true (.inl ⟨by simp [he], by simp [he]⟩) (.inl ?_)
    rcases hwhy with h | h | h
    · exact .inl h
    · exact .inr (.inl fun last hl => absurd hl (h last))
    · exact .inr (.inr (.inl h))
  · refine iff_of_true (.inl ⟨by simp [he], by simp [he]⟩) (.inl (.inr (.inl ?_)))
    intro last' hl
    obtain rfl := Except.ok.inj (hread.symm.trans hl)
    exact hv
  · obtain ⟨_, hval, g, hg⟩ := ensureChecks_ok_iff.mp hchk
    obtain ⟨lba, lbas, hlbas⟩ := List.exists_cons_of_ne_nil (replicaLbas_ne_nil hval d)
    have hlen : (newSector P d.sectorSize vmk o k₁ k₂ vid salt).length =
        (List.replicate d.sectorSize.toNat (0 : UInt8)).length := by
      rw [length_newSector P (last_of_ensureChecks hchk).1, List.length_replicate]
    have hp : JvckMetadata.parse P (slice (newSector P d.sectorSize vmk o k₁ k₂ vid salt) 0 512) =
        .ok (newHeader d.sectorSize o vid) := by
      rw [slice_newSector]
      exact JvckMetadata.parse_encode ..
    obtain ⟨hsome, hnone⟩ := writeEach_cons (newSector P d.sectorSize vmk o k₁ k₂ vid salt) d lba lbas
    rw [writeSectorAt_congr hlen] at hsome hnone
    rw [← replicaLbas, hlbas] at he
    rw [he]
    simp only
    by_cases hw : (writeSectorAt d (lba * d.sectorSize.toUInt64) (List.replicate d.sectorSize.toNat 0)).1 = .ok ()
    · rw [recordsLayout_iff_of_log hg hp (hsome hw) (writeEach_sector _ d _)]
      constructor
      · exact .inr
      · rintro ((h | h | h | h) | h)
        · exact absurd hchk h
        · have hv' := h last hread
          rw [hv] at hv'
          cases hv'
        · exact absurd hent (h _)
        · exact absurd hw (h lba (by rw [hlbas]; rfl))
        · exact h
    · obtain ⟨hnil, herr⟩ := hnone hw
      refine iff_of_true (.inl ⟨?_, hnil⟩) (.inl (.inr (.inr (.inr ?_))))
      · revert herr
        generalize (writeEach _ d _).1 = r
        cases r with
        | error e => simp [Except.map]
        | ok u => simp
      · intro lba' hhead
        rw [hlbas] at hhead
        obtain rfl := Option.some.inj hhead
        exact hw

end Ensure

/-! ## Both programs -/

/-- Creation in the store and in the SDK records the layout that it used, or writes nothing, exactly when it is
stopped by its first write at the latest or both counts fit a byte. -/
theorem creation_records_layout_iff {P : Primitives} {codec : MetadataCodec} (hc : LawfulCodec P codec) :
    (∀ (d : Device) (vmk : Bytes) (options : JvckMetadataOptions) (k₁ k₂ : Fixed 32) (vid : Fixed 16),
      RecordsLayout P d.sectorSize d.totalSectors options
          (∃ s, (JvckMetadataStore.create d vmk options k₁ k₂ vid codec).1 = .ok s)
          (createLog d vmk options k₁ k₂ vid codec) ↔
        CreateRefused d vmk options k₁ k₂ vid codec ∨ CountsFit options) ∧
    ∀ (env : Env) (d : Device) (vmk : Bytes) (o : JvckMetadataOptions),
      RecordsLayout P d.sectorSize d.totalSectors o ((ensureJvckMetadata P env d vmk o).1 = .ok true)
          (ensureJvckMetadata P env d vmk o).2.2 ↔
        EnsureRefused P env d o ∨ CountsFit o :=
  ⟨fun _ _ _ _ _ _ => create_records_iff hc, fun _ _ _ _ => ensure_records_iff⟩

/-- Two footers on 1024 sectors are recorded, by the store and by the SDK. -/
theorem two_footers_recorded :
    RecordsLayout JvckMetadata.standard 512 1024 ⟨0, 2, 131072⟩
        (∃ s, (JvckMetadataStore.create (blank 512 1024 (by decide)) [1, 2, 3] ⟨0, 2, 131072⟩
          (List.Vector.replicate 32 1) (List.Vector.replicate 32 2) (List.Vector.replicate 16 9)
          (jvckCbcCodec JvckMetadata.standard)).1 = .ok s)
        (createLog (blank 512 1024 (by decide)) [1, 2, 3] ⟨0, 2, 131072⟩ (List.Vector.replicate 32 1)
          (List.Vector.replicate 32 2) (List.Vector.replicate 16 9) (jvckCbcCodec JvckMetadata.standard)) ∧
      RecordsLayout JvckMetadata.standard 512 1024 ⟨0, 2, 131072⟩
        ((ensureJvckMetadata JvckMetadata.standard calm (blank 512 1024 (by decide)) [1, 2, 3] ⟨0, 2, 131072⟩).1 =
          .ok true)
        (ensureJvckMetadata JvckMetadata.standard calm (blank 512 1024 (by decide)) [1, 2, 3] ⟨0, 2, 131072⟩).2.2 := by
  have hfit : CountsFit ⟨0, 2, 131072⟩ := ⟨by decide, by decide⟩
  obtain ⟨hstore, hsdk⟩ := creation_records_layout_iff (jvckCbcCodec_lawful JvckMetadata.standard)
  exact ⟨(hstore ..).mpr (.inr hfit), (hsdk ..).mpr (.inr hfit)⟩

/-- 256 header replicas are recorded as none: `create` succeeds and its header describes another layout. -/
theorem header_count_lost :
    (∃ s, (JvckMetadataStore.create (blank 512 66000 (by decide)) [1, 2, 3] ⟨256, 1, 131072⟩
      (List.Vector.replicate 32 1) (List.Vector.replicate 32 2) (List.Vector.replicate 16 9)
      (jvckCbcCodec JvckMetadata.standard)).1 = .ok s) ∧
    ¬ RecordsLayout JvckMetadata.standard 512 66000 ⟨256, 1, 131072⟩
        (∃ s, (JvckMetadataStore.create (blank 512 66000 (by decide)) [1, 2, 3] ⟨256, 1, 131072⟩
          (List.Vector.replicate 32 1) (List.Vector.replicate 32 2) (List.Vector.replicate 16 9)
          (jvckCbcCodec JvckMetadata.standard)).1 = .ok s)
        (createLog (blank 512 66000 (by decide)) [1, 2, 3] ⟨256, 1, 131072⟩ (List.Vector.replicate 32 1)
          (List.Vector.replicate 32 2) (List.Vector.replicate 16 9) (jvckCbcCodec JvckMetadata.standard)) := by
  have hg : computeGeometry 512 66000 ⟨256, 1, 131072⟩ = .ok ⟨65536, 208, 512⟩ := by decide
  have hv : (⟨256, 1, 131072⟩ : JvckMetadataOptions).validate = .ok () := by decide
  constructor
  · obtain ⟨L, hL, _⟩ := (computeGeometry_ok_iff (by decide)).mp hg
    obtain ⟨s, d', hcreate, _⟩ := JvckRuns.create_cbc (P := JvckMetadata.standard) [1, 2, 3]
      (List.Vector.replicate 32 1) (List.Vector.replicate 32 2) (List.Vector.replicate 16 9)
      (@blank_healthy 512 66000 (by decide)) hv hL
    exact ⟨s, by rw [hcreate]⟩
  · intro hrec
    rcases (create_records_iff (jvckCbcCodec_lawful JvckMetadata.standard)).mp hrec with (h | h | h | h) | h
    · exact h hv
    · exact h _ hg
    · exact h (List.Vector.replicate 16 0) _ rfl rfl
    · exact h 0 rfl ⟨by decide, fun _ _ => rfl⟩
    · exact absurd h.1 (by decide)

end CreationRecord
