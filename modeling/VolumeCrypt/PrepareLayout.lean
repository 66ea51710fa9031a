import VolumeCrypt.JvckStore

/-!
# Layouts computed inline by PREPARE

`lib/windrv/src/ioctl/dispatch.rs` lays the replicas out by itself, once on the AddDevice
path and once on the fallback path, and `sdk/jvck.go` lists their sectors a third time.
They agree with `compute_geometry` and `metadata_sector_lbas` exactly on the requests
that lay out a tiling of the volume.
-/
namespace PrepareLayout

open VckTypes JvckLayout JvckStore

structure ReplicaLayout where
  offsetSector : UInt64
  dataSectors : UInt64
  replicaLbas : List UInt64
  deriving DecidableEq, Repr

/-- `for k in 0..count { v.push(f(k)) }`. -/
def pushEach (v : List UInt64) (count : UInt32) (f : UInt64 → UInt64) : List UInt64 :=
  (List.range count.toNat).foldl (fun v k => v ++ [f (UInt64.ofNat k)]) v

/-- The arithmetic that both paths spell out: only `data_sectors` saturates. -/
def replicaLayout (sectorSize : UInt32) (totalSectors : UInt64) (o : JvckMetadataOptions) : ReplicaLayout :=
  let rs := (o.metadataSize / sectorSize).toUInt64
  let footerSectors := o.useFooter.toUInt64 * rs
  let headerSectors := o.useHeader.toUInt64 * rs
  let footerStart := totalSectors - o.useFooter.toUInt64 * rs
  { offsetSector := headerSectors
    dataSectors := saturatingSub totalSectors (headerSectors + footerSectors)
    replicaLbas := pushEach (pushEach [] o.useHeader fun i => i * rs) o.useFooter fun j =>
      footerStart + j * rs + rs - 1 }

/-- `handle_jvck_prepare_adddevice_path` takes the geometry query's answer as it is. -/
def addDeviceLayout (sectorSize : UInt32) (totalSectors : UInt64) (o : JvckMetadataOptions) : VckResult ReplicaLayout :=
  .ok (replicaLayout sectorSize totalSectors o)

/-- `handle_jvck_prepare` without a pre-attached filter. -/
def fallbackLayout (sectorSize : UInt32) (totalSectors : UInt64) (o : JvckMetadataOptions) : VckResult ReplicaLayout :=
  if sectorSize = 0 ∨ totalSectors = 0 then .error (.io "could not query volume geometry")
  else .ok (replicaLayout sectorSize totalSectors o)

/-- `metadataSectorLBAs` of `sdk/jvck.go`. -/
def sdkMetadataSectorLbas (volumeSectors rs : UInt64) (useHeader useFooter : UInt32) : List UInt64 :=
  let headers := pushEach [] useHeader fun i => i * rs
  let footerStart := volumeSectors - useFooter.toUInt64 * rs
  pushEach headers useFooter fun j =>
    let regionStart := footerStart + j * rs
    regionStart + rs - 1

theorem pushEach_eq (v : List UInt64) (count : UInt32) (f : UInt64 → UInt64) :
    pushEach v count f = v ++ (List.range count.toNat).map fun k => f (UInt64.ofNat k) := by
  have h : ∀ (ks : List Nat) (v : List UInt64),
      ks.foldl (fun v k => v ++ [f (UInt64.ofNat k)]) v = v ++ ks.map fun k => f (UInt64.ofNat k) := by
    intro ks
    induction ks with
    | nil => simp
    | cons k ks ih =>
      intro v
      simp [ih]
  exact h _ _

/-- The driver's list of replica sectors is the store's, wrapped or not. -/
theorem replicaLbas_eq (sectorSize : UInt32) (totalSectors : UInt64) (o : JvckMetadataOptions) :
    (replicaLayout sectorSize totalSectors o).replicaLbas =
      metadataSectorLbas totalSectors (replicaSectors o.metadataSize sectorSize) o.useHeader o.useFooter := by
  simp [replicaLayout, pushEach_eq, metadataSectorLbas, replicaSectors]

/-- So is the SDK's. -/
theorem sdkMetadataSectorLbas_eq (volumeSectors rs : UInt64) (useHeader useFooter : UInt32) :
    sdkMetadataSectorLbas volumeSectors rs useHeader useFooter =
      metadataSectorLbas volumeSectors rs useHeader useFooter := by
  simp [sdkMetadataSectorLbas, pushEach_eq, metadataSectorLbas]

/-! ## Agreement with the store -/

/-- None of the subtractions of the layout goes below zero: the data size, the start of
the footer regions and the last sector of each footer region. -/
def NoBorrow (totalSectors rs : UInt64) (useHeader useFooter : UInt32) : Prop :=
  useHeader.toNat * rs.toNat + useFooter.toNat * rs.toNat ≤ totalSectors.toNat ∧
    ∀ j, j < useFooter.toNat → 1 ≤ totalSectors.toNat - useFooter.toNat * rs.toNat + j * rs.toNat + rs.toNat

/-- The inline result is `compute_geometry`'s: a refusal for a refusal, else the same numbers. -/
def AgreesWithStore (inlined : VckResult ReplicaLayout) (sectorSize : UInt32) (totalSectors : UInt64)
    (o : JvckMetadataOptions) : Prop :=
  match inlined with
  | .error _ => ∃ e, computeGeometry sectorSize totalSectors o = .error e
  | .ok l => ∃ g, computeGeometry sectorSize totalSectors o = .ok g ∧
      l.offsetSector = g.offsetSector ∧ l.dataSectors = g.dataSectors ∧
      l.replicaLbas =
        metadataSectorLbas totalSectors (replicaSectors o.metadataSize sectorSize) o.useHeader o.useFooter ∧
      l.replicaLbas =
        sdkMetadataSectorLbas totalSectors (replicaSectors o.metadataSize sectorSize) o.useHeader o.useFooter ∧
      NoBorrow totalSectors (replicaSectors o.metadataSize sectorSize) o.useHeader o.useFooter

/-- The request lays out a tiling: whole sectors in a replica and room for a data region. -/
def LaysOut (sectorSize : UInt32) (totalSectors : UInt64) (o : JvckMetadataOptions) : Prop :=
  1 ≤ o.metadataSize.toNat / sectorSize.toNat ∧ o.useHeader.toNat + o.useFooter.toNat < 2 ^ 32 ∧
    (o.useHeader.toNat + o.useFooter.toNat) * (o.metadataSize.toNat / sectorSize.toNat) < totalSectors.toNat

instance (sectorSize : UInt32) (totalSectors : UInt64) (o : JvckMetadataOptions) :
    Decidable (LaysOut sectorSize totalSectors o) :=
  inferInstanceAs (Decidable (_ ∧ _ ∧ _))

section

variable {sectorSize : UInt32} {totalSectors : UInt64} {o : JvckMetadataOptions}

/-- The saturating subtraction of the source in naturals. -/
theorem toNat_saturatingSub (a b : UInt64) : (saturatingSub a b).toNat = a.toNat - b.toNat := by
  rw [saturatingSub]
  split
  · rename_i h
    have := UInt64.lt_iff_toNat_lt.mp h
    change 0 = _
    omega
  · rename_i h
    exact UInt64.toNat_sub_of_le _ _ (UInt64.not_lt.mp h)

theorem toNat_count_mul (hs : 512 ≤ sectorSize.toNat) (n : UInt32) :
    (n.toUInt64 * replicaSectors o.metadataSize sectorSize).toNat =
      n.toNat * (o.metadataSize.toNat / sectorSize.toNat) := by
  rw [toUInt64_eq, toNat_ofNat_mul_replica hs n.toNat_lt]

theorem toNat_inlineData (totalSectors : UInt64) (o : JvckMetadataOptions) (hs : 512 ≤ sectorSize.toNat) :
    (replicaLayout sectorSize totalSectors o).dataSectors.toNat =
      totalSectors.toNat - (o.useHeader.toNat + o.useFooter.toNat) * (o.metadataSize.toNat / sectorSize.toNat) := by
  have hr := replica_lt (o := o) hs
  have hh : o.useHeader.toNat * (o.metadataSize.toNat / sectorSize.toNat) ≤ 2 ^ 32 * 2 ^ 23 :=
    Nat.mul_le_mul (Nat.le_of_lt o.useHeader.toNat_lt) (Nat.le_of_lt hr)
  have hf : o.useFooter.toNat * (o.metadataSize.toNat / sectorSize.toNat) ≤ 2 ^ 32 * 2 ^ 23 :=
    Nat.mul_le_mul (Nat.le_of_lt o.useFooter.toNat_lt) (Nat.le_of_lt hr)
  have hadd : (o.useHeader.toUInt64 * replicaSectors o.metadataSize sectorSize +
      o.useFooter.toUInt64 * replicaSectors o.metadataSize sectorSize).toNat =
      (o.useHeader.toNat + o.useFooter.toNat) * (o.metadataSize.toNat / sectorSize.toNat) := by
    rw [UInt64.toNat_add, toNat_count_mul hs, toNat_count_mul hs, Nat.mod_eq_of_lt (by omega), Nat.add_mul]
  rw [← hadd]
  exact toNat_saturatingSub _ _

/-- A request that lays out a tiling gets the store's numbers. -/
theorem agrees_of_laysOut (hs : 512 ≤ sectorSize.toNat) (h : LaysOut sectorSize totalSectors o) :
    AgreesWithStore (.ok (replicaLayout sectorSize totalSectors o)) sectorSize totalSectors o := by
  obtain ⟨hr, hc, hfit⟩ := h
  let L : Layout := ⟨_, _, _, _, hr, hfit⟩
  have hL : L.Of sectorSize totalSectors o := ⟨rfl, rfl, rfl, rfl, hs, hc⟩
  have hdata := toNat_inlineData totalSectors o hs
  have hlbas := replicaLbas_eq sectorSize totalSectors o
  refine ⟨_, hL.computeGeometry_eq, ?_, ?_, hlbas, hlbas.trans (sdkMetadataSectorLbas_eq _ _ _ _).symm, ?_, ?_⟩
  · apply UInt64.toNat_inj.mp
    have hlt : L.dataStart < 2 ^ 64 := by
      have := L.consumed_lt
      have := hL.total_lt
      omega
    simp only [Layout.geometry, UInt64.toNat_ofNat', Nat.mod_eq_of_lt hlt]
    exact toNat_count_mul hs _
  · apply UInt64.toNat_inj.mp
    have hlt : L.dataCount < 2 ^ 64 := lt_of_le_of_lt (Nat.sub_le _ _) hL.total_lt
    simp only [Layout.geometry, UInt64.toNat_ofNat', Nat.mod_eq_of_lt hlt]
    exact hdata
  · rw [toNat_replicaSectors, ← Nat.add_mul]
    omega
  · intro j _
    rw [toNat_replicaSectors]
    omega

/-- A request that does not is refused by `compute_geometry`, or gets another data size from it. -/
theorem laysOut_of_agrees (hs : 512 ≤ sectorSize.toNat)
    (h : AgreesWithStore (.ok (replicaLayout sectorSize totalSectors o)) sectorSize totalSectors o) :
    LaysOut sectorSize totalSectors o := by
  obtain ⟨g, hg, _, hdata, _, _, _, _⟩ := h
  by_cases hc : o.useHeader.toNat + o.useFooter.toNat < 2 ^ 32
  · obtain ⟨L, hL, _⟩ := (computeGeometry_ok_iff hc).mp hg
    have hpos := L.replica_pos
    have hfit := L.fits
    rw [hL.replica] at hpos hfit
    rw [hL.headers, hL.footers, hL.total] at hfit
    exact ⟨hpos, hc, hfit⟩
  · exfalso
    obtain ⟨_, hpos, hfit, hgeom⟩ := computeGeometry_inv hg
    have hsum := toNat_count_mul (o := o) hs (o.useHeader + o.useFooter)
    have hinline := toNat_inlineData totalSectors o hs
    rw [hdata, hgeom, UInt64.toNat_sub_of_le _ _ (UInt64.le_iff_toNat_le.mpr (Nat.le_of_lt hfit))] at hinline
    rw [hsum] at hinline hfit
    obtain ⟨n, hn⟩ : ∃ n, o.useHeader.toNat + o.useFooter.toNat = n + 2 ^ 32 := Nat.exists_eq_add_of_le' (by omega)
    have hwrap : (o.useHeader + o.useFooter).toNat = n := by
      have hu := o.useHeader.toNat_lt
      have hv := o.useFooter.toNat_lt
      rw [UInt32.toNat_add]
      omega
    rw [hwrap] at hinline hfit
    rw [hn, Nat.add_mul] at hinline
    omega

/-- A refusal for lack of a geometry is also `compute_geometry`'s. -/
theorem computeGeometry_zero_total : ∃ e, computeGeometry sectorSize 0 o = .error e := by
  cases hg : computeGeometry sectorSize 0 o with
  | error e => exact ⟨e, rfl⟩
  | ok g => exact absurd (computeGeometry_inv hg).2.2.1 (Nat.not_lt_zero _)

theorem addDevice_agrees_iff (hs : 512 ≤ sectorSize.toNat) :
    AgreesWithStore (addDeviceLayout sectorSize totalSectors o) sectorSize totalSectors o ↔
      LaysOut sectorSize totalSectors o :=
  ⟨laysOut_of_agrees hs, agrees_of_laysOut hs⟩

/-- The fallback path differs on one point: it refuses an empty volume, as the store does. -/
theorem fallback_agrees_iff (hs : 512 ≤ sectorSize.toNat) :
    AgreesWithStore (fallbackLayout sectorSize totalSectors o) sectorSize totalSectors o ↔
      totalSectors = 0 ∨ LaysOut sectorSize totalSectors o := by
  have hss : sectorSize ≠ 0 := by
    rintro rfl
    exact absurd hs (by decide)
  by_cases ht : totalSectors = 0
  · subst ht
    simp only [fallbackLayout, or_true, if_true, true_or, iff_true]
    exact computeGeometry_zero_total
  · simp only [fallbackLayout, hss, ht, or_self, if_false, false_or]
    exact ⟨laysOut_of_agrees hs, agrees_of_laysOut hs⟩

/-- Both inline layouts are the store's exactly when the request lays out a tiling of the volume. -/
theorem prepare_layout_agrees_iff (hs : 512 ≤ sectorSize.toNat) :
    (AgreesWithStore (addDeviceLayout sectorSize totalSectors o) sectorSize totalSectors o ∧
      AgreesWithStore (fallbackLayout sectorSize totalSectors o) sectorSize totalSectors o) ↔
        LaysOut sectorSize totalSectors o := by
  rw [addDevice_agrees_iff hs, fallback_agrees_iff hs]
  exact ⟨fun h => h.1, fun h => ⟨h, .inr h⟩⟩

end

/-- One footer replica of 128 KiB fits a volume of 1 MiB. -/
theorem prepare_layout_agrees_mebibyte :
    AgreesWithStore (addDeviceLayout 512 2048 ⟨0, 1, 131072⟩) 512 2048 ⟨0, 1, 131072⟩ ∧
      AgreesWithStore (fallbackLayout 512 2048 ⟨0, 1, 131072⟩) 512 2048 ⟨0, 1, 131072⟩ :=
  (prepare_layout_agrees_iff (by decide)).mpr (by decide)

/-- On a volume of 100 sectors the footer region of 256 starts below zero: the store
refuses it, both paths of PREPARE go on. -/
theorem prepare_layout_too_small :
    ¬ AgreesWithStore (addDeviceLayout 512 100 ⟨0, 1, 131072⟩) 512 100 ⟨0, 1, 131072⟩ ∧
      ¬ AgreesWithStore (fallbackLayout 512 100 ⟨0, 1, 131072⟩) 512 100 ⟨0, 1, 131072⟩ := by
  have h : ¬ LaysOut 512 100 ⟨0, 1, 131072⟩ := by decide
  exact ⟨fun ha => h (laysOut_of_agrees (by decide) ha), fun hf => h (laysOut_of_agrees (by decide) hf)⟩

end PrepareLayout
