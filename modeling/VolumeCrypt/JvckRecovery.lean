import VolumeCrypt.JvckRuns

/-!
# Recovery after a crash and after damage

Two things can happen to the replicas between two opens: a crash in the middle of
`write_all_replicas` leaves a prefix of them ahead of the rest, and bad sectors
take some of them away. The recovery rule takes the largest offset that is left,
and Phase A looks at two sectors only; both theorems here say exactly when that
is enough.
-/
namespace JvckRecovery

open ByteString ByteMemory VckTypes SectorIo JvckLayout JvckStore JvckReplicas JvckRuns
open JvckMetadata (Primitives JvckHeader JvckSecrets)

/-! ## A store that is cut off -/

/-- `store(offset)` cut off by a crash after `k` replica writes. -/
def storeCutOff (k : Nat) (s : JvckMetadataStore) (d : Device) (offset : EncryptedOffset) : VckResult Unit × Device :=
  ({ s with offset := offset.sector } : JvckMetadataStore).writeReplicas k d

/-- Not cut off, it is `store`. -/
theorem storeCutOff_all (s : JvckMetadataStore) (d : Device) (offset : EncryptedOffset) :
    storeCutOff s.lbas.length s d offset = ((s.store d offset).1, (s.store d offset).2.2) := rfl

/-- The offset of the batch lies ahead of the stored one in the direction of the sweep. -/
def Ahead (state : VolumeState) (old new : UInt64) : Prop :=
  match state with
  | .encrypt => old < new
  | .decrypt => new < old

section CutOff

variable {P : Primitives} {L : Layout} {s : JvckMetadataStore} {d₀ d₁ d₂ : Device} {k : Nat}
  {offset : EncryptedOffset}

/-- The first `k` replicas take the fields of the store, the others keep what they hold. -/
theorem writeReplicas_holds {P : Primitives} {L : Layout} {s : JvckMetadataStore} {d d' : Device} {k : Nat}
    {content : Nat → Option (UInt64 × VolumeState)} (hon : On s.toPlacement L d)
    (h : (suiteOf s).Holds P L d content) (hw : s.writeReplicas k d = (.ok (), d'))
    (hread : ∀ i, i < L.count → d'.readFault (L.metaLba i) = false) :
    (suiteOf s).Holds P L d' fun i =>
      if i < k then some (s.offset, VolumeState.fromU16 s.state) else content i := by
  obtain ⟨hframe, hblocks⟩ := writeReplicas_spec hon hw
  obtain ⟨salt, block, hseal, hall⟩ := hblocks rfl
  intro i hi
  by_cases hik : i < k
  · simp only [if_pos hik]
    refine ⟨hread i hi, ?_⟩
    rw [hall i hik hi]
    exact ⟨salt, hseal⟩
  · have hsame : blockAt d' (L.metaLba i) = blockAt d (L.metaLba i) := by
      apply blockAt_frame hframe
      rintro ⟨j, hj, _, he⟩
      exact hik (L.metaLba_injective he ▸ hj)
    have hfault : d'.readFault (L.metaLba i) = d.readFault (L.metaLba i) := by rw [hframe.readFault]
    have hi' := h i hi
    simp only [if_neg hik]
    cases hcon : content i with
    | some x =>
      rw [hcon] at hi'
      exact ⟨hread i hi, hsame ▸ hi'.2⟩
    | none =>
      rw [hcon] at hi'
      rw [Damaged, hsame, hfault]
      exact hi'

/-- The first `k` replicas carry the new offset and the others the old one, all with one state. -/
theorem storeCutOff_holds (hsync : Synced L s d₁) (hcut : storeCutOff k s d₁ offset = (.ok (), d₂))
    (hread : ∀ i, i < L.count → d₂.readFault (L.metaLba i) = false) :
    (suiteOf s).Holds P L d₂ fun i =>
      some (if i < k then offset.sector else s.offset, VolumeState.fromU16 s.state) := by
  have hframe := (writeReplicas_spec (s := { s with offset := offset.sector }) hsync.on hcut).1
  have hold : (suiteOf s).Holds P L d₁ fun _ => some (s.offset, VolumeState.fromU16 s.state) := by
    apply hsync.holds
    rw [← hframe.readFault]
    exact hread
  have hnew := writeReplicas_holds (s := { s with offset := offset.sector }) hsync.on hold hcut hread
  intro i hi
  have hi' := hnew i hi
  by_cases hik : i < k
  · simp only [if_pos hik] at hi' ⊢
    exact hi'
  · simp only [if_neg hik] at hi' ⊢
    exact hi'

/-- Opening after the crash finds the larger of the two offsets. -/
theorem open_after_cutOff (hcodec : s.codec = jvckCbcCodec P) (hsync : Synced L s d₁) (hf : 1 ≤ L.footers)
    (hk : 1 ≤ k ∧ k < L.count) (hcut : storeCutOff k s d₁ offset = (.ok (), d₂))
    (hread : ∀ i, i < L.count → d₂.readFault (L.metaLba i) = false) :
    ∃ s', JvckMetadataStore.openStore P d₂ s.vmk = .ok s' ∧
      (s'.offset = offset.sector ∨ s'.offset = s.offset) ∧ offset.sector ≤ s'.offset ∧ s.offset ≤ s'.offset := by
  have hc : LawfulCodec P (suiteOf s).codec := by
    rw [suiteOf, hcodec]
    exact jvckCbcCodec_lawful P
  obtain ⟨hframe, -⟩ := writeReplicas_spec (s := { s with offset := offset.sector }) hsync.on hcut
  have hon : On s.toPlacement L d₂ := hsync.on.frame hframe
  have hL : L.Of d₂.sectorSize d₂.totalSectors (JvckMetadataReader.optionsOf s.header) := by
    rw [← hsync.options]
    exact hon.layout
  have hholds := storeCutOff_holds (P := P) hsync hcut hread
  have hlast : L.metaLba (L.count - 1) = d₂.sectors - 1 := by
    rw [L.metaLba_last hf, hon.total]
  have hintact := hholds (L.count - 1) (by omega)
  simp only [hlast] at hintact
  have hopen := openReader_of_last (K := suiteOf s) hc hL hintact
  have hfirst : (List.range L.count).findSome? (fun i =>
      some (if i < k then offset.sector else s.offset, VolumeState.fromU16 s.state)) =
        some (offset.sector, VolumeState.fromU16 s.state) := by
    obtain ⟨n, hn⟩ : ∃ n, L.count = n + 1 := ⟨L.count - 1, by omega⟩
    rw [hn, List.range_succ_eq_map, List.findSome?_cons, if_pos (by omega)]
  obtain ⟨m, ⟨hmem, hmax⟩, hstore⟩ := intoStore_of_holds (K := suiteOf s) hc (readerOf_on hL) rfl hholds hfirst
  have hin (i : Nat) (hi : i < L.count) : (if i < k then offset.sector else s.offset) ≤ m := by
    apply hmax
    rw [survivors, List.mem_filterMap]
    exact ⟨i, List.mem_range.mpr hi, rfl⟩
  have hnew := hin 0 (by omega)
  have hold := hin k hk.2
  rw [if_pos (by omega)] at hnew
  rw [if_neg (by omega)] at hold
  have hone : m = offset.sector ∨ m = s.offset := by
    rw [survivors, List.mem_filterMap] at hmem
    obtain ⟨i, -, hi⟩ := hmem
    have hi : (if i < k then offset.sector else s.offset) = m := Option.some.inj hi
    split at hi
    · exact .inl hi.symm
    · exact .inr hi.symm
  rw [JvckMetadataStore.openStore, ← hcodec, openWith_eq hopen]
  exact ⟨_, hstore, hone, hnew, hold⟩

/-- After a completed batch and a store that was cut off part way, opening the volume recovers the
boundary of the batch exactly when the sweep was encrypting. -/
theorem cut_off_store_recovers_iff (hcodec : s.codec = jvckCbcCodec P) (hsync : Synced L s d₀)
    (hf : 1 ≤ L.footers) (hdir : Ahead (VolumeState.fromU16 s.state) s.offset offset.sector)
    (hbatch : Frame L.InData d₀ d₁) (hk : 1 ≤ k ∧ k < L.count)
    (hcut : storeCutOff k s d₁ offset = (.ok (), d₂))
    (hread : ∀ i, i < L.count → d₂.readFault (L.metaLba i) = false) :
    (∃ s', JvckMetadataStore.openStore P d₂ s.vmk = .ok s' ∧ s'.offset = offset.sector) ↔
      VolumeState.fromU16 s.state = .encrypt := by
  have hsync₁ := hsync.frame hbatch fun i hi => L.metaLba_not_data hi
  obtain ⟨s', hopen, hone, hnew, hold⟩ := open_after_cutOff hcodec hsync₁ hf hk hcut hread
  have huniq : (∃ s', JvckMetadataStore.openStore P d₂ s.vmk = .ok s' ∧ s'.offset = offset.sector) ↔
      s'.offset = offset.sector := by
    constructor
    · rintro ⟨t, ht, ho⟩
      rw [Except.ok.inj (hopen.symm.trans ht)]
      exact ho
    · intro ho
      exact ⟨s', hopen, ho⟩
  rw [huniq]
  rw [UInt64.le_iff_toNat_le] at hnew hold
  cases hst : VolumeState.fromU16 s.state with
  | encrypt =>
    rw [hst] at hdir
    have hlt : s.offset < offset.sector := hdir
    rw [UInt64.lt_iff_toNat_lt] at hlt
    refine ⟨fun _ => rfl, fun _ => ?_⟩
    rcases hone with h | h
    · exact h
    · rw [h] at hnew
      omega
  | decrypt =>
    rw [hst] at hdir
    have hlt : offset.sector < s.offset := hdir
    rw [UInt64.lt_iff_toNat_lt] at hlt
    refine ⟨fun h => ?_, fun h => by cases h⟩
    rw [h] at hold
    omega

end CutOff

section SampleCutOff

/-- A store with two footer replicas, at the given boundary and direction. -/
def sampleStore (offset : UInt64) (state : VolumeState) : JvckMetadataStore where
  options := ⟨0, 2, 131072⟩
  geometry := twoFooters.geometry 512
  volumeSectors := 1024
  vmk := [1, 2, 3]
  header :=
    { vendorId := 0
      metadataVersion := 1
      vendorVersion := 0
      metadataSize := 131072
      sectorSize := 512
      headerReplicaCount := 0
      footerReplicaCount := 2
      volumeId := List.Vector.replicate 16 9
      vendorReserved := List.Vector.replicate 192 0 }
  secrets := ⟨List.Vector.replicate 32 1, List.Vector.replicate 32 2⟩
  offset := offset
  state := state.asU16
  codec := jvckCbcCodec JvckMetadata.standard

/-- A zeroed volume on which the store has written its two replicas. -/
def sampleDevice (offset : UInt64) (state : VolumeState) : Device :=
  ((sampleStore offset state).writeAllReplicas (blank 512 1024 (by decide))).2

/-- The volume after `store(offset')` was cut off behind the first replica. -/
def sampleCut (offset : UInt64) (state : VolumeState) (offset' : UInt64) : Device :=
  (storeCutOff 1 (sampleStore offset state) (sampleDevice offset state) ⟨offset', 512⟩).2

theorem sampleDevice_synced (offset : UInt64) (state : VolumeState) :
    Synced twoFooters (sampleStore offset state) (sampleDevice offset state) ∧
      Healthy (sampleDevice offset state) := by
  have hon : On (sampleStore offset state).toPlacement twoFooters (blank 512 1024 (by decide)) :=
    ⟨twoFooters_of, rfl, rfl⟩
  exact (writeAllReplicas_fresh (P := JvckMetadata.standard) (blank_healthy _) hon rfl rfl).2

theorem sampleDevice_holds (offset : UInt64) (state : VolumeState) :
    (suiteOf (sampleStore offset state)).Holds JvckMetadata.standard twoFooters (sampleDevice offset state)
      fun _ => some (offset, state) := by
  obtain ⟨hsync, hd⟩ := sampleDevice_synced offset state
  have hstate : VolumeState.fromU16 (sampleStore offset state).state = state := VolumeState.fromU16_asU16 state
  have hholds := hsync.holds (P := JvckMetadata.standard) fun _ _ => hd.readFault _
  rw [hstate] at hholds
  exact hholds

theorem sampleCut_eq (offset : UInt64) (state : VolumeState) (offset' : UInt64) :
    storeCutOff 1 (sampleStore offset state) (sampleDevice offset state) ⟨offset', 512⟩ =
        (.ok (), sampleCut offset state offset') ∧
      Healthy (sampleCut offset state offset') := by
  obtain ⟨hsync, hd⟩ := sampleDevice_synced offset state
  have hw := writeReplicas_cbc (P := JvckMetadata.standard)
    (s := { sampleStore offset state with offset := offset' }) hsync.on hd rfl 1
  obtain ⟨hframe, -⟩ := writeReplicas_spec
    (s := { sampleStore offset state with offset := offset' }) hsync.on hw
  exact ⟨hw, hd.frame hframe⟩

/-- Encrypting from 5 to 10, the crash behind the first of two replicas is recovered. -/
theorem cut_off_encrypt_recovers :
    ∃ s', JvckMetadataStore.openStore JvckMetadata.standard (sampleCut 5 .encrypt 10) [1, 2, 3] = .ok s' ∧
      s'.offset = 10 := by
  obtain ⟨hsync, -⟩ := sampleDevice_synced 5 .encrypt
  obtain ⟨hcut, hd⟩ := sampleCut_eq 5 .encrypt 10
  have hdir : Ahead .encrypt 5 (EncryptedOffset.mk 10 512).sector := by
    change (5 : UInt64) < 10
    decide
  exact (cut_off_store_recovers_iff (s := sampleStore 5 .encrypt) rfl hsync (by decide) hdir
    (Frame.refl _ _) (by decide) hcut fun i _ => hd.readFault _).mpr rfl

/-- Decrypting from 10 to 5, the crash behind the first of two replicas brings boundary 10 back. -/
theorem cut_off_decrypt_loses :
    Synced twoFooters (sampleStore 10 .decrypt) (sampleDevice 10 .decrypt) ∧
      storeCutOff 1 (sampleStore 10 .decrypt) (sampleDevice 10 .decrypt) ⟨5, 512⟩ = (.ok (), sampleCut 10 .decrypt 5) ∧
      ∃ s', JvckMetadataStore.openStore JvckMetadata.standard (sampleCut 10 .decrypt 5) [1, 2, 3] = .ok s' ∧
        s'.offset = 10 ∧ s'.offset ≠ 5 := by
  obtain ⟨hsync, -⟩ := sampleDevice_synced 10 .decrypt
  obtain ⟨hcut, hd⟩ := sampleCut_eq 10 .decrypt 5
  obtain ⟨s', hopen, hone, -, hold⟩ := open_after_cutOff (s := sampleStore 10 .decrypt) rfl hsync (by decide)
    (by decide) hcut fun i _ => hd.readFault _
  have hten : s'.offset = 10 := by
    rcases hone with h | h
    · rw [h] at hold
      exact absurd hold (by decide)
    · exact h
  refine ⟨hsync, hcut, s', hopen, hten, ?_⟩
  rw [hten]
  decide

end SampleCutOff

/-! ## Damaged replicas -/

/-- `d'` is `d` after some replicas were damaged; the others can still be read. -/
structure Damage (P : Primitives) (L : Layout) (damaged : Nat → Bool) (d d' : Device) : Prop where
  sectorSize : d'.sectorSize = d.sectorSize
  totalSectors : d'.totalSectors = d.totalSectors
  kept : ∀ i, i < L.count → damaged i = false →
    d'.readFault (L.metaLba i) = false ∧ blockAt d' (L.metaLba i) = blockAt d (L.metaLba i)
  lost : ∀ i, i < L.count → damaged i = true → Damaged P d' (L.metaLba i)
  survivor : ∃ i, i < L.count ∧ damaged i = false
  /-- No data sector looks like a Metadata block. -/
  data : ∀ lba, L.InData lba → JvckMetadata.verifyCrc P (blockAt d' lba).toList ≠ .ok ()

/-- The offsets that the undamaged replicas unseal to. -/
def survivingOffsets (P : Primitives) (L : Layout) (damaged : Nat → Bool) (d : Device) (vmk : Bytes) : List UInt64 :=
  (List.range L.count).filterMap fun i =>
    if damaged i then none
    else (JvckMetadata.readEncryptedOffset P (blockAt d (L.metaLba i)).toList vmk).toOption

/-- Phase A finds a replica: the one in the last sector, or else the one in sector 0. -/
def Probed (L : Layout) (damaged : Nat → Bool) (d' : Device) : Prop :=
  (0 < L.footers ∧ damaged (L.count - 1) = false) ∨
    (0 < L.headers ∧ damaged 0 = false ∧ d'.readFault (d'.sectors - 1) = false)

section Damages

variable {P : Primitives} {L : Layout} {s : JvckMetadataStore} {damaged : Nat → Bool} {d d' : Device}

theorem Damage.holds (h : Damage P L damaged d d') (hsync : Synced L s d) :
    (suiteOf s).Holds P L d' fun i => if damaged i then none else some (s.offset, VolumeState.fromU16 s.state) := by
  intro i hi
  cases hdam : damaged i with
  | true =>
    simp only [hdam, if_true]
    exact h.lost i hi hdam
  | false =>
    obtain ⟨hread, hblock⟩ := h.kept i hi hdam
    simp only [hdam, Bool.false_eq_true, if_false]
    refine ⟨hread, ?_⟩
    rw [hblock]
    exact hsync.replicas i hi

/-- The last sector holds a footer replica, or it is a data sector. -/
theorem Damage.last_damaged (h : Damage P L damaged d d') (htotal : L.total = d'.sectors)
    (hlast : ¬ (0 < L.footers ∧ damaged (L.count - 1) = false)) : Damaged P d' (d'.sectors - 1) := by
  rw [← htotal]
  by_cases hf : 0 < L.footers
  · rw [← L.metaLba_last hf]
    apply h.lost
    · rw [Layout.count]
      omega
    · simpa [hf] using hlast
  · exact .inr (h.data _ (L.last_inData (by omega)))

/-- Sector 0 holds a header replica, or it is a data sector. -/
theorem Damage.first_damaged (h : Damage P L damaged d d') (hfirst : ¬ (0 < L.headers ∧ damaged 0 = false)) :
    Damaged P d' 0 := by
  by_cases hh : 0 < L.headers
  · rw [← L.metaLba_first hh]
    apply h.lost
    · rw [Layout.count]
      omega
    · simpa [hh] using hfirst
  · exact .inr (h.data _ (L.first_inData (by omega)))

/-- The layout of the volume, seen on the damaged device. -/
theorem Damage.layoutOf (h : Damage P L damaged d d') (hsync : Synced L s d) :
    L.Of d'.sectorSize d'.totalSectors (JvckMetadataReader.optionsOf s.header) := by
  rw [h.sectorSize, h.totalSectors]
  exact hsync.layoutOf

/-- A probed replica is enough for Phase A. -/
theorem Damage.openReader_eq (h : Damage P L damaged d d') (hsync : Synced L s d) (hc : LawfulCodec P s.codec)
    (hprobed : Probed L damaged d') : JvckMetadataReader.openReader P d' = .ok (readerOf s.header L d') := by
  have hL := h.layoutOf hsync
  have htotal : L.total = d'.sectors := hL.total
  have hholds := h.holds hsync
  have hat {i : Nat} (hi : i < L.count) (hdam : damaged i = false) :
      (suiteOf s).Intact d' (L.metaLba i) s.offset (VolumeState.fromU16 s.state) := by
    have hi' := hholds i hi
    simp only [hdam, Bool.false_eq_true, if_false] at hi'
    exact hi'
  have hlastCase (hf : 0 < L.footers) (hdam : damaged (L.count - 1) = false) :
      JvckMetadataReader.openReader P d' = .ok (readerOf s.header L d') := by
    have hintact := hat (by rw [Layout.count]; omega) hdam
    rw [L.metaLba_last hf, htotal] at hintact
    exact openReader_of_last (K := suiteOf s) hc hL hintact
  by_cases hlast : 0 < L.footers ∧ damaged (L.count - 1) = false
  · exact hlastCase hlast.1 hlast.2
  · rcases hprobed with hp | ⟨hh, hdam, hread⟩
    · exact absurd hp hlast
    · have hintact := hat (i := 0) (by rw [Layout.count]; omega) hdam
      rw [L.metaLba_first hh] at hintact
      refine openReader_of_first (K := suiteOf s) hc hL hread ?_ hintact
      rcases h.last_damaged htotal hlast with hbad | hbad
      · rw [hread] at hbad
        cases hbad
      · exact hbad

/-- Where no probed replica is left, Phase A gives up. -/
theorem Damage.openReader_fails (h : Damage P L damaged d d') (hsync : Synced L s d)
    (hlast : ¬ (0 < L.footers ∧ damaged (L.count - 1) = false)) (hfirst : ¬ (0 < L.headers ∧ damaged 0 = false)) :
    ∃ e, JvckMetadataReader.openReader P d' = .error e := by
  have hL := h.layoutOf hsync
  have htotal : L.total = d'.sectors := hL.total
  have hn : 0 < d'.sectors := by
    have := L.fits
    omega
  rw [JvckReplicas.openReader_eq hL.sectorSize hn]
  have hl := h.last_damaged htotal hlast
  have h₀ := h.first_damaged hfirst
  cases hr : d'.readFault (d'.sectors - 1) with
  | true => exact ⟨_, rfl⟩
  | false =>
    have hbad : ¬ JvckMetadata.verifyCrc P (blockAt d' (d'.sectors - 1)).toList = .ok () := by
      rcases hl with hl | hl
      · rw [hr] at hl
        cases hl
      · exact hl
    rw [if_neg (by simp), if_neg hbad]
    cases hr₀ : d'.readFault 0 with
    | true => exact ⟨_, rfl⟩
    | false =>
      have hbad₀ : ¬ JvckMetadata.verifyCrc P (blockAt d' 0).toList = .ok () := by
        rcases h₀ with h₀ | h₀
        · rw [hr₀] at h₀
          cases h₀
        · exact h₀
      rw [if_neg (by simp), if_neg hbad₀]
      exact ⟨_, rfl⟩

/-- What the undamaged replicas unseal to is what the store recovers from. -/
theorem survivingOffsets_eq (hsync : Synced L s d) (hcodec : s.codec = jvckCbcCodec P) :
    survivingOffsets P L damaged d s.vmk =
      survivors (fun i => if damaged i then none else some (s.offset, VolumeState.fromU16 s.state)) L.count := by
  rw [survivingOffsets, survivors]
  apply List.filterMap_congr
  intro i hi
  cases hdam : damaged i with
  | true => rfl
  | false =>
    obtain ⟨salt, hseal⟩ := hsync.replicas i (List.mem_range.mp hi)
    rw [suiteOf, hcodec] at hseal
    have hblock := congrArg List.Vector.toList (Except.ok.inj hseal)
    rw [← hblock]
    simp only [Bool.false_eq_true, if_false, Option.map_some]
    exact congrArg Except.toOption (JvckMetadata.readEncryptedOffset_encode P s.header s.secrets s.offset
      (VolumeState.fromU16 s.state) salt s.vmk)

/-- Phase B, from any survivor. -/
theorem Damage.openStore_eq (h : Damage P L damaged d d') (hsync : Synced L s d) (hcodec : s.codec = jvckCbcCodec P)
    (hprobed : Probed L damaged d') :
    ∃ m, IsLargest m (survivingOffsets P L damaged d s.vmk) ∧
      JvckMetadataStore.openStore P d' s.vmk =
        .ok { s with offset := m, state := (VolumeState.fromU16 s.state).asU16 } := by
  have hc : LawfulCodec P s.codec := by
    rw [hcodec]
    exact jvckCbcCodec_lawful P
  have hopen := h.openReader_eq hsync hc hprobed
  have hL := h.layoutOf hsync
  have hfirst : (List.range L.count).findSome?
      (fun i => if damaged i then none else some (s.offset, VolumeState.fromU16 s.state)) =
        some (s.offset, VolumeState.fromU16 s.state) := by
    obtain ⟨i, hi, hdam⟩ := h.survivor
    rw [← List.head?_filterMap]
    have hall : ∀ x ∈ (List.range L.count).filterMap
        (fun i => if damaged i then none else some (s.offset, VolumeState.fromU16 s.state)),
          x = (s.offset, VolumeState.fromU16 s.state) := by
      intro x hx
      obtain ⟨j, -, hj⟩ := List.mem_filterMap.mp hx
      split at hj
      · cases hj
      · exact (Option.some.inj hj).symm
    have hmem : (s.offset, VolumeState.fromU16 s.state) ∈ (List.range L.count).filterMap
        (fun i => if damaged i then none else some (s.offset, VolumeState.fromU16 s.state)) :=
      List.mem_filterMap.mpr ⟨i, List.mem_range.mpr hi, by rw [if_neg (by simp [hdam])]⟩
    cases hlist : (List.range L.count).filterMap
        (fun i => if damaged i then none else some (s.offset, VolumeState.fromU16 s.state)) with
    | nil =>
      rw [hlist] at hmem
      cases hmem
    | cons x xs =>
      rw [hlist] at hall
      rw [List.head?_cons, hall x List.mem_cons_self]
  obtain ⟨m, hm, hstore⟩ := intoStore_of_holds (K := suiteOf s) hc (readerOf_on hL) rfl (h.holds hsync) hfirst
  rw [← survivingOffsets_eq hsync hcodec] at hm
  refine ⟨m, hm, ?_⟩
  rw [JvckMetadataStore.openStore, ← hcodec, openWith_eq hopen]
  have hplace : (readerOf s.header L d').toPlacement = s.toPlacement := by
    have hp := hsync.readerPlacement
    rw [readerOf] at hp ⊢
    rw [h.sectorSize, h.totalSectors]
    exact hp
  refine hstore.trans ?_
  rw [hplace]
  rfl

end Damages

/-- After any run of successful operations, a volume whose probed replica survives opens with its
keys, identity and geometry and the largest offset that is left. -/
theorem damaged_volume_opens (P : Primitives) {d₀ d₁ d d' : Device} {vmk : Bytes} {options : JvckMetadataOptions}
    {k₁ k₂ : Fixed 32} {vid : Fixed 16} (hh : options.useHeader.toNat ≤ 255) (hf : options.useFooter.toNat ≤ 255)
    {s₀ s : JvckMetadataStore}
    (hcreate : JvckMetadataStore.create d₀ vmk options k₁ k₂ vid (jvckCbcCodec P) = (.ok s₀, d₁))
    {ops : List StoreOp} (hrun : StepRun.run step (s₀, d₁) ops = some (s, d)) {L : Layout}
    (hL : L.Of d₀.sectorSize d₀.totalSectors options) {damaged : Nat → Bool} (hdamage : Damage P L damaged d d')
    (hprobed : Probed L damaged d') :
    ∃ s', JvckMetadataStore.openStore P d' vmk = .ok s' ∧ s'.secrets = ⟨k₁, k₂⟩ ∧ s'.header.volumeId = vid ∧
      s'.geometry = s₀.geometry ∧ IsLargest s'.offset (survivingOffsets P L damaged d vmk) := by
  obtain ⟨L', hL', hrep⟩ := create_represents hh hf hcreate
  obtain rfl : L = L' := hL.unique hL'
  obtain ⟨-, -, -, -, -, -, hsuite, hvid, -⟩ := create_spec hh hf hcreate
  obtain ⟨hcodec, -, hsecrets, hvmk⟩ := Suite.mk.inj hsuite
  have hfin := StepRun.run_simulates (VolumeRecord.apply d₀.ss) step_represents hrep hrun
  obtain ⟨hcodec', hheader', hsecrets', hvmk'⟩ := Suite.mk.inj hfin.suite
  simp only at hcodec' hheader' hsecrets' hvmk'
  obtain ⟨m, hm, hopen⟩ := hdamage.openStore_eq hfin.synced (hcodec'.trans hcodec) hprobed
  simp only [hvmk', hvmk] at hm hopen
  refine ⟨_, hopen, hsecrets'.trans hsecrets, ?_, congrArg Placement.geometry hfin.placement, hm⟩
  change s.header.volumeId = vid
  rw [hheader', ← hvid]

/-- The device with one sector zeroed. -/
def wipe (d : Device) (lba : Nat) : Device := { d with bytes := save d.bytes (lba * d.ss) (List.replicate d.ss 0) }

theorem zero_not_valid (P : Primitives) {d : Device} {lba : Nat} (hs : d.sector lba = List.replicate 512 0) :
    JvckMetadata.verifyCrc P (blockAt d lba).toList ≠ .ok () := by
  intro hv
  have hsig := ((JvckMetadata.verifyCrc_ok_iff _ _).mp hv).2.1
  rw [blockAt, hs] at hsig
  revert hsig
  decide

/-- Wiping one of the two footer replicas of an otherwise zeroed volume. -/
theorem wipe_damage (P : Primitives) {d : Device} (hframe : Frame twoFooters.IsMeta (blank 512 1024 (by decide)) d)
    {j : Nat} (hj : j < 2) : Damage P twoFooters (· == j) d (wipe d (twoFooters.metaLba j)) := by
  have hss : d.ss = 512 := hframe.ss
  have hwipe : Frame (· = twoFooters.metaLba j) d (wipe d (twoFooters.metaLba j)) := by
    refine ⟨rfl, rfl, rfl, rfl, rfl, ?_⟩
    intro a ha
    apply save_apply_of_not_mem
    rw [List.length_replicate, hss]
    rw [hss] at ha
    omega
  have hself : (wipe d (twoFooters.metaLba j)).sector (twoFooters.metaLba j) = List.replicate 512 0 := by
    have hsame := load_save_same d.bytes (a := twoFooters.metaLba j * d.ss) (b := List.replicate d.ss 0) (n := d.ss)
      (List.length_replicate ..)
    rw [← hss]
    exact hsame
  refine ⟨rfl, rfl, ?_, ?_, ?_, ?_⟩
  · intro i _ hne
    constructor
    · exact congrFun hframe.readFault _
    · apply blockAt_frame hwipe
      intro he
      rw [twoFooters.metaLba_injective he, beq_self_eq_true] at hne
      cases hne
  · intro i _ he
    obtain rfl := beq_iff_eq.mp he
    exact .inr (zero_not_valid P hself)
  · refine ⟨1 - j, by change 1 - j < 2; omega, ?_⟩
    rw [beq_eq_false_iff_ne]
    omega
  · intro lba hdata
    apply zero_not_valid
    rw [hwipe.sector_eq, hframe.sector_eq]
    · exact load_zero _ _
    · rintro ⟨i, hi, rfl⟩
      exact twoFooters.metaLba_not_data hi hdata
    · rintro rfl
      exact twoFooters.metaLba_not_data hj hdata

/-- The first of two footer replicas is lost. -/
theorem first_footer_lost :
    ∃ s₀ d₁ s', JvckMetadataStore.create (blank 512 1024 (by decide)) [1, 2, 3] ⟨0, 2, 131072⟩
        (List.Vector.replicate 32 1) (List.Vector.replicate 32 2) (List.Vector.replicate 16 9)
        (jvckCbcCodec JvckMetadata.standard) = (.ok s₀, d₁) ∧
      JvckMetadataStore.openStore JvckMetadata.standard (wipe d₁ (twoFooters.metaLba 0)) [1, 2, 3] = .ok s' ∧
      s'.secrets = ⟨List.Vector.replicate 32 1, List.Vector.replicate 32 2⟩ := by
  have hd : Healthy (blank 512 1024 (by decide)) := blank_healthy _
  obtain ⟨s₀, d₁, hcreate, -⟩ := create_cbc (P := JvckMetadata.standard) [1, 2, 3] (List.Vector.replicate 32 1)
    (List.Vector.replicate 32 2) (List.Vector.replicate 16 9) hd (by decide) twoFooters_of
  obtain ⟨L, hL, -, hframe, -⟩ := create_spec (by decide) (by decide) hcreate
  obtain rfl : L = twoFooters := hL.unique twoFooters_of
  obtain ⟨s', hopen, hsecrets, -⟩ := damaged_volume_opens JvckMetadata.standard (by decide) (by decide) hcreate
    (show StepRun.run step (s₀, d₁) [] = some (s₀, d₁) from rfl) twoFooters_of
    (wipe_damage _ hframe (j := 0) (by decide)) (.inl ⟨by decide, by decide⟩)
  exact ⟨s₀, d₁, s', hcreate, hopen, hsecrets⟩

/-- The last of two footer replicas is lost: the other one is intact, but opening fails. -/
theorem last_footer_lost :
    ∃ s₀ d₁ e, JvckMetadataStore.create (blank 512 1024 (by decide)) [1, 2, 3] ⟨0, 2, 131072⟩
        (List.Vector.replicate 32 1) (List.Vector.replicate 32 2) (List.Vector.replicate 16 9)
        (jvckCbcCodec JvckMetadata.standard) = (.ok s₀, d₁) ∧
      Damage JvckMetadata.standard twoFooters (· == 1) d₁ (wipe d₁ (twoFooters.metaLba 1)) ∧
      JvckMetadataStore.openStore JvckMetadata.standard (wipe d₁ (twoFooters.metaLba 1)) [1, 2, 3] = .error e := by
  have hd : Healthy (blank 512 1024 (by decide)) := blank_healthy _
  obtain ⟨s₀, d₁, hcreate, -⟩ := create_cbc (P := JvckMetadata.standard) [1, 2, 3] (List.Vector.replicate 32 1)
    (List.Vector.replicate 32 2) (List.Vector.replicate 16 9) hd (by decide) twoFooters_of
  obtain ⟨L, hL, hsync, hframe, -⟩ := create_spec (by decide) (by decide) hcreate
  obtain rfl : L = twoFooters := hL.unique twoFooters_of
  have hdamage := wipe_damage JvckMetadata.standard hframe (j := 1) (by decide)
  obtain ⟨e, he⟩ := hdamage.openReader_fails hsync (by decide) (by decide)
  refine ⟨s₀, d₁, e, hcreate, hdamage, ?_⟩
  rw [JvckMetadataStore.openStore, openWith, he]
  rfl

end JvckRecovery
