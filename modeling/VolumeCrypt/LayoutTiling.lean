import VolumeCrypt.IntervalTiling
import VolumeCrypt.JvckStore

/-!
# The replica layout tiles the volume

The layout functions of `jvck/store.rs` once more, with every addition, subtraction
and multiplication checked: on a layout that `compute_geometry` accepts they return
what the wrapping ones return. The regions that they describe tile the volume.
-/
namespace LayoutTiling

open VckTypes JvckLayout JvckStore IntervalTiling

/-! ## Checked arithmetic -/

def checkedSub (a b : UInt64) : Option UInt64 := if b ≤ a then some (a - b) else none

def checkedMul (a b : UInt64) : Option UInt64 := if a.toNat * b.toNat < 2 ^ 64 then some (a * b) else none

def checkedAdd32 (a b : UInt32) : Option UInt32 := if a.toNat + b.toNat < 2 ^ 32 then some (a + b) else none

theorem checkedSub_eq {a b : UInt64} (h : b.toNat ≤ a.toNat) : checkedSub a b = some (a - b) :=
  if_pos (UInt64.le_iff_toNat_le.mpr h)

theorem checkedMul_eq {a b : UInt64} (h : a.toNat * b.toNat < 2 ^ 64) : checkedMul a b = some (a * b) := if_pos h

theorem checkedAdd_eq {a b : UInt64} (h : a.toNat + b.toNat < 2 ^ 64) : checkedAdd a b = some (a + b) := if_pos h

theorem checkedAdd32_eq {a b : UInt32} (h : a.toNat + b.toNat < 2 ^ 32) : checkedAdd32 a b = some (a + b) := if_pos h

/-! ## The layout functions with checked arithmetic -/

/-- The body of the footer loop. -/
def footerLbaChecked (footerStart rs : UInt64) (j : Nat) : Option UInt64 := do
  let skip ← checkedMul (UInt64.ofNat j) rs
  let regionStart ← checkedAdd footerStart skip
  let regionEnd ← checkedAdd regionStart rs
  checkedSub regionEnd 1

def metadataSectorLbasChecked (volumeSectors rs : UInt64) (useHeader useFooter : UInt32) : Option (List UInt64) := do
  let _capacity ← checkedAdd32 useHeader useFooter
  let header ← (List.range useHeader.toNat).mapM fun i => checkedMul (UInt64.ofNat i) rs
  let footerSectors ← checkedMul useFooter.toUInt64 rs
  let footerStart ← checkedSub volumeSectors footerSectors
  let footer ← (List.range useFooter.toNat).mapM (footerLbaChecked footerStart rs)
  return header ++ footer

def vendorDataBaseLbaAtChecked (volumeSectors rs : UInt64) (useHeader useFooter : UInt32) (replicaIndex : Nat) :
    Option (Option UInt64) := do
  let uh := useHeader.toNat
  let uf := useFooter.toNat
  if replicaIndex < uh then
    let skip ← checkedMul (UInt64.ofNat replicaIndex) rs
    let base ← checkedAdd skip 1
    return some base
  else
    let _count ← checkedAdd (UInt64.ofNat uh) (UInt64.ofNat uf)
    if replicaIndex < uh + uf then
      let j := UInt64.ofNat (replicaIndex - uh)
      let footerSectors ← checkedMul (UInt64.ofNat uf) rs
      let footerStart ← checkedSub volumeSectors footerSectors
      let skip ← checkedMul j rs
      let base ← checkedAdd footerStart skip
      return some base
    else return none

def computeGeometryChecked (sectorSize : UInt32) (volumeSectors : UInt64) (options : JvckMetadataOptions) :
    Option (VckResult Geometry) := do
  if sectorSize.toNat < 512 then return .error (.unsupported "sector size smaller than 512")
  else
    let rs := replicaSectors options.metadataSize sectorSize
    if rs = 0 then return .error (.validationFailed "metadata_size smaller than one sector")
    else
      let count ← checkedAdd32 options.useHeader options.useFooter
      let consumed ← checkedMul count.toUInt64 rs
      if consumed ≥ volumeSectors then
        return .error (.validationFailed "volume too small to hold metadata replicas")
      else
        let offsetSector ← checkedMul options.useHeader.toUInt64 rs
        let dataSectors ← checkedSub volumeSectors consumed
        return .ok { offsetSector, dataSectors, sectorSize }

theorem mapM_eq_map {α β : Type*} {f : α → Option β} {g : α → β} {l : List α} (h : ∀ x ∈ l, f x = some (g x)) :
    l.mapM f = some (l.map g) := by
  induction l with
  | nil => rfl
  | cons x xs ih =>
    rw [List.mapM_cons, h x (by simp), ih fun y hy => h y (by simp [hy])]
    rfl

section Checked

variable {sectorSize : UInt32} {volumeSectors : UInt64} {o : JvckMetadataOptions} {L : Layout}
  (h : L.Of sectorSize volumeSectors o)

include h

/-- No product of a replica count or index with the replica size wraps. -/
theorem checkedMul_rs {k : Nat} (hk : k < 2 ^ 32) :
    checkedMul (UInt64.ofNat k) (replicaSectors o.metadataSize sectorSize) =
      some (UInt64.ofNat k * replicaSectors o.metadataSize sectorSize) := by
  have hlt := mul_replica_lt (o := o) h.sectorSize hk
  apply checkedMul_eq
  rw [UInt64.toNat_ofNat', Nat.mod_eq_of_lt (hk.trans (by decide))]
  exact hlt

theorem checkedSub_footer :
    checkedSub volumeSectors (UInt64.ofNat L.footers * replicaSectors o.metadataSize sectorSize) =
      some (volumeSectors - UInt64.ofNat L.footers * replicaSectors o.metadataSize sectorSize) := by
  have hend := L.footerEnd_eq
  apply checkedSub_eq
  rw [h.toNat_ofNat_mul h.footers_lt, ← h.total]
  omega

/-- The region of footer replica `j` ends inside the volume. -/
theorem footerRegion_end {j : Nat} (hj : j < L.footers) :
    L.footerStart + j * L.replica + L.replica ≤ L.total ∧ L.total < 2 ^ 64 := by
  have hend := L.footerEnd_eq
  have hstep := L.mul_step hj
  exact ⟨by omega, h.total_lt⟩

theorem computeGeometryChecked_eq :
    computeGeometryChecked sectorSize volumeSectors o = some (computeGeometry sectorSize volumeSectors o) := by
  have hrs := h.toNat_rs
  have hpos := L.replica_pos
  have hcount : (o.useHeader + o.useFooter).toUInt64 = UInt64.ofNat L.count := by
    rw [toUInt64_eq, UInt32.toNat_add, Nat.mod_eq_of_lt h.counts, Layout.count, h.headers, h.footers]
  have hhead : o.useHeader.toUInt64 = UInt64.ofNat L.headers := by rw [toUInt64_eq, h.headers]
  have hfit : ¬ UInt64.ofNat L.count * replicaSectors o.metadataSize sectorSize ≥ volumeSectors := by
    rw [ge_iff_le, UInt64.le_iff_toNat_le, h.toNat_ofNat_mul h.count_lt, ← h.total]
    exact Nat.not_le.mpr L.fits
  have hsub : (UInt64.ofNat L.count * replicaSectors o.metadataSize sectorSize).toNat ≤ volumeSectors.toNat := by
    rw [h.toNat_ofNat_mul h.count_lt, ← h.total]
    exact Nat.le_of_lt L.fits
  have hsize : ¬ sectorSize.toNat < 512 := Nat.not_lt.mpr h.sectorSize
  have hne : replicaSectors o.metadataSize sectorSize ≠ 0 := by
    rw [← UInt64.toNat_inj.ne, hrs]
    exact Nat.ne_of_gt hpos
  simp only [computeGeometryChecked, computeGeometry, if_neg hsize, if_neg hne, hcount, if_neg hfit, hhead,
    checkedAdd32_eq h.counts, checkedMul_rs h h.count_lt, checkedMul_rs h h.headers_lt, checkedSub_eq hsub,
    Option.bind_eq_bind, Option.bind_some, Option.pure_def]

theorem footerLbaChecked_eq {j : Nat} (hj : j < L.footers) :
    footerLbaChecked (volumeSectors - UInt64.ofNat L.footers * replicaSectors o.metadataSize sectorSize)
        (replicaSectors o.metadataSize sectorSize) j =
      some (volumeSectors - UInt64.ofNat L.footers * replicaSectors o.metadataSize sectorSize +
        UInt64.ofNat j * replicaSectors o.metadataSize sectorSize + replicaSectors o.metadataSize sectorSize - 1) := by
  have hstart := h.toNat_footerStart
  have hrs := h.toNat_rs
  have hskip := h.toNat_ofNat_mul (hj.trans h.footers_lt)
  have hpos := L.replica_pos
  obtain ⟨hend, htot⟩ := footerRegion_end h hj
  have hregion : (volumeSectors - UInt64.ofNat L.footers * replicaSectors o.metadataSize sectorSize +
      UInt64.ofNat j * replicaSectors o.metadataSize sectorSize).toNat = L.footerStart + j * L.replica := by
    rw [UInt64.toNat_add, hstart, hskip]
    exact Nat.mod_eq_of_lt (by omega)
  have hlast : (1 : UInt64).toNat ≤ (volumeSectors - UInt64.ofNat L.footers * replicaSectors o.metadataSize sectorSize +
      UInt64.ofNat j * replicaSectors o.metadataSize sectorSize + replicaSectors o.metadataSize sectorSize).toNat := by
    rw [UInt64.toNat_add, hregion, hrs, Nat.mod_eq_of_lt (by omega)]
    change 1 ≤ _
    omega
  simp only [footerLbaChecked, checkedMul_rs h (hj.trans h.footers_lt), Option.bind_eq_bind, Option.bind_some]
  rw [checkedAdd_eq (by rw [hstart, hskip]; omega), Option.bind_some, checkedAdd_eq (by rw [hregion, hrs]; omega),
    Option.bind_some, checkedSub_eq hlast]

theorem metadataSectorLbasChecked_eq :
    metadataSectorLbasChecked volumeSectors (replicaSectors o.metadataSize sectorSize) o.useHeader o.useFooter =
      some (metadataSectorLbas volumeSectors (replicaSectors o.metadataSize sectorSize) o.useHeader o.useFooter) := by
  have hfoot : o.useFooter.toUInt64 = UInt64.ofNat L.footers := by rw [toUInt64_eq, h.footers]
  have hheader : ((List.range L.headers).mapM fun i =>
      checkedMul (UInt64.ofNat i) (replicaSectors o.metadataSize sectorSize)) =
        some ((List.range L.headers).map fun i => UInt64.ofNat i * replicaSectors o.metadataSize sectorSize) := by
    apply mapM_eq_map
    intro i hi
    exact checkedMul_rs h ((List.mem_range.mp hi).trans h.headers_lt)
  rw [metadataSectorLbasChecked, metadataSectorLbas, checkedAdd32_eq h.counts, hfoot, ← h.headers, ← h.footers,
    hheader, checkedMul_rs h h.footers_lt]
  simp only [Option.bind_eq_bind, Option.bind_some, checkedSub_footer h]
  rw [mapM_eq_map fun j hj => footerLbaChecked_eq h (List.mem_range.mp hj)]
  rfl

theorem vendorDataBaseLbaAtChecked_eq (i : Nat) :
    vendorDataBaseLbaAtChecked volumeSectors (replicaSectors o.metadataSize sectorSize) o.useHeader o.useFooter i =
      some (vendorDataBaseLbaAt volumeSectors (replicaSectors o.metadataSize sectorSize) o.useHeader o.useFooter
        i) := by
  have hcount := h.count_lt
  have htot := h.total_lt
  have hdata := L.consumed_lt
  rw [Layout.count] at hcount
  rw [vendorDataBaseLbaAtChecked, vendorDataBaseLbaAt, ← h.headers, ← h.footers]
  simp only
  by_cases hi : i < L.headers
  · have hskip := h.toNat_ofNat_mul (hi.trans h.headers_lt)
    have hstep : i * L.replica + L.replica ≤ L.dataStart := L.mul_step hi
    have hpos := L.replica_pos
    have hone : (UInt64.ofNat i * replicaSectors o.metadataSize sectorSize).toNat + (1 : UInt64).toNat < 2 ^ 64 := by
      rw [hskip]
      change i * L.replica + 1 < 2 ^ 64
      omega
    rw [if_pos hi, if_pos hi, checkedMul_rs h (hi.trans h.headers_lt)]
    simp only [Option.bind_eq_bind, Option.bind_some, checkedAdd_eq hone, Option.pure_def]
  · have hadd : (UInt64.ofNat L.headers).toNat + (UInt64.ofNat L.footers).toNat < 2 ^ 64 := by
      rw [UInt64.toNat_ofNat', UInt64.toNat_ofNat']
      omega
    rw [if_neg hi, if_neg hi, checkedAdd_eq hadd]
    simp only [Option.bind_eq_bind, Option.bind_some]
    by_cases hj : i < L.headers + L.footers
    · have hlt : i - L.headers < L.footers := by omega
      have hskip := h.toNat_ofNat_mul (hlt.trans h.footers_lt)
      obtain ⟨hend, _⟩ := footerRegion_end h hlt
      rw [if_pos hj, if_pos hj, checkedMul_rs h h.footers_lt]
      simp only [Option.bind_some, checkedSub_footer h]
      rw [checkedMul_rs h (hlt.trans h.footers_lt), Option.bind_some,
        checkedAdd_eq (by rw [h.toNat_footerStart, hskip]; omega)]
      rfl
    · rw [if_neg hj, if_neg hj]
      rfl

end Checked

/-! ## The tiling -/

/-- The sectors of replica `i`, header replicas first, as a range of natural numbers. -/
def replicaRegion (volumeSectors rs useHeader useFooter i : Nat) : Nat × Nat :=
  if i < useHeader then (i * rs, i * rs + rs)
  else
    (volumeSectors - useFooter * rs + (i - useHeader) * rs,
      volumeSectors - useFooter * rs + (i - useHeader) * rs + rs)

/-- What the layout functions make of a volume that `compute_geometry` accepted. -/
structure TilesVolume (sectorSize : UInt32) (volumeSectors : UInt64) (o : JvckMetadataOptions) (g : Geometry)
    (rs : UInt64) (lbas : List UInt64) : Prop where
  /-- Header regions, data region and footer regions are disjoint and fill the volume. -/
  regions : Tiles
    ((List.range o.useHeader.toNat).map
        (replicaRegion volumeSectors.toNat rs.toNat o.useHeader.toNat o.useFooter.toNat) ++
      (g.offsetSector.toNat, g.offsetSector.toNat + g.dataSectors.toNat) ::
        (List.range o.useFooter.toNat).map fun j =>
          replicaRegion volumeSectors.toNat rs.toNat o.useHeader.toNat o.useFooter.toNat (o.useHeader.toNat + j))
    0 volumeSectors.toNat
  data_pos : 0 < g.dataSectors
  geometry_checked : computeGeometryChecked sectorSize volumeSectors o = some (.ok g)
  lbas_checked : metadataSectorLbasChecked volumeSectors rs o.useHeader o.useFooter = some lbas
  vendor_checked : ∀ i, vendorDataBaseLbaAtChecked volumeSectors rs o.useHeader o.useFooter i =
    some (vendorDataBaseLbaAt volumeSectors rs o.useHeader o.useFooter i)
  length_lbas : lbas.length = o.useHeader.toNat + o.useFooter.toNat
  /-- The Metadata sector and the vendor sectors of a replica are disjoint and fill its region. -/
  replica : ∀ i, i < o.useHeader.toNat + o.useFooter.toNat → ∃ lba base, lbas[i]? = some lba ∧
    vendorDataBaseLbaAt volumeSectors rs o.useHeader o.useFooter i = some base ∧
    Tiles [(lba.toNat, lba.toNat + 1), (base.toNat, base.toNat + (rs.toNat - 1))]
      (replicaRegion volumeSectors.toNat rs.toNat o.useHeader.toNat o.useFooter.toNat i).1
      (replicaRegion volumeSectors.toNat rs.toNat o.useHeader.toNat o.useFooter.toNat i).2
  nodup : lbas.Nodup
  last : 1 ≤ o.useFooter.toNat → lbas.getLast? = some (volumeSectors - 1)

section Tiling

variable (L : Layout)

/-- The regions of a layout and its data region, in the order of their sectors. -/
theorem regions_chain :
    Chain 0
      ((List.range L.headers).map (fun i => (L.regionStart i, L.regionStart i + L.replica)) ++
        (L.dataStart, L.dataStart + L.dataCount) ::
          (List.range L.footers).map fun j =>
            (L.regionStart (L.headers + j), L.regionStart (L.headers + j) + L.replica))
      L.total := by
  have hheader := Chain.range (f := (· * L.replica)) L.headers fun i _ => Nat.mul_le_mul_right _ (by omega)
  have hfooter := Chain.range (f := fun j => L.footerStart + j * L.replica) L.footers
    fun j _ => Nat.add_le_add_left (Nat.mul_le_mul_right _ (by omega)) _
  simp only [Nat.zero_mul, Nat.add_zero, L.footerEnd_eq] at hheader hfooter
  have hdata : Chain L.dataStart [(L.dataStart, L.dataStart + L.dataCount)] L.footerStart := by
    rw [← L.dataEnd_eq]
    exact .cons (Nat.le_add_right _ _) (.nil _)
  have hall := hheader.append (hdata.append hfooter)
  have hh : ((List.range L.headers).map fun i => (i * L.replica, (i + 1) * L.replica)) =
      (List.range L.headers).map fun i => (L.regionStart i, L.regionStart i + L.replica) := by
    apply List.map_congr_left
    intro i hi
    rw [Layout.regionStart, if_pos (List.mem_range.mp hi), Nat.succ_mul]
  have hf : ((List.range L.footers).map fun j =>
        (L.footerStart + j * L.replica, L.footerStart + (j + 1) * L.replica)) =
      (List.range L.footers).map fun j =>
        (L.regionStart (L.headers + j), L.regionStart (L.headers + j) + L.replica) := by
    apply List.map_congr_left
    intro j _
    rw [Layout.regionStart, if_neg (by omega), Nat.add_sub_cancel_left, Nat.succ_mul, ← Nat.add_assoc]
  rw [hh, hf] at hall
  exact hall

/-- The Metadata sector leads a header region and ends a footer region; the vendor sectors are the rest. -/
theorem replica_tiles (i : Nat) :
    Tiles [(L.metaLba i, L.metaLba i + 1), (L.vendorBase i, L.vendorBase i + (L.replica - 1))]
      (L.regionStart i) (L.regionStart i + L.replica) := by
  have hpos := L.replica_pos
  rcases L.meta_vendor i with ⟨hm, hv⟩ | ⟨hm, hv⟩
  · rw [hm, hv, show L.regionStart i + L.replica = L.regionStart i + 1 + (L.replica - 1) by omega]
    exact (Chain.cons (Nat.le_add_right _ _) (.cons (Nat.le_add_right _ _) (.nil _))).tiles
  · rw [hv, ← hm, show L.metaLba i = L.regionStart i + (L.replica - 1) by omega]
    have hchain := (Chain.cons (Nat.le_add_right (L.regionStart i) (L.replica - 1))
      (.cons (Nat.le_add_right _ 1) (.nil _))).tiles
    exact hchain.perm (List.Perm.swap _ _ _)

end Tiling

theorem tilesVolume_of_layout {sectorSize : UInt32} {volumeSectors : UInt64} {o : JvckMetadataOptions} {L : Layout}
    (h : L.Of sectorSize volumeSectors o) :
    TilesVolume sectorSize volumeSectors o (L.geometry sectorSize) (replicaSectors o.metadataSize sectorSize)
      (metadataSectorLbas volumeSectors (replicaSectors o.metadataSize sectorSize) o.useHeader o.useFooter) := by
  have htot := h.total_lt
  have hdata := L.dataEnd_eq
  have hend := L.footerEnd_eq
  have hstart : (L.geometry sectorSize).offsetSector.toNat = L.dataStart := by
    change (UInt64.ofNat L.dataStart).toNat = L.dataStart
    rw [UInt64.toNat_ofNat', Nat.mod_eq_of_lt (by omega)]
  have hcount : (L.geometry sectorSize).dataSectors.toNat = L.dataCount := by
    change (UInt64.ofNat L.dataCount).toNat = L.dataCount
    rw [UInt64.toNat_ofNat', Nat.mod_eq_of_lt (by omega)]
  have hregion (i : Nat) : replicaRegion volumeSectors.toNat (replicaSectors o.metadataSize sectorSize).toNat
      o.useHeader.toNat o.useFooter.toNat i = (L.regionStart i, L.regionStart i + L.replica) := by
    rw [replicaRegion, h.toNat_rs, ← h.headers, ← h.footers, ← h.total, Layout.regionStart, Layout.footerStart]
    split <;> rfl
  constructor
  · have hchain := (regions_chain L).tiles
    rw [h.total, h.headers, h.footers] at hchain
    rw [hstart, hcount, funext hregion]
    exact hchain
  · rw [UInt64.lt_iff_toNat_lt, hcount]
    exact L.dataCount_pos
  · rw [computeGeometryChecked_eq h, h.computeGeometry_eq]
  · exact metadataSectorLbasChecked_eq h
  · exact vendorDataBaseLbaAtChecked_eq h
  · rw [h.metadataSectorLbas_eq, List.length_map, List.length_range, Layout.count, h.headers, h.footers]
  · intro i hi
    have hi : i < L.count := by rw [Layout.count, h.headers, h.footers]; exact hi
    have hbase : (UInt64.ofNat (L.vendorBase i)).toNat = L.vendorBase i := by
      have hpos := L.replica_pos
      have hle : L.regionStart i + (L.replica - 1) < L.total := L.region_lt_total hi (by omega)
      rw [UInt64.toNat_ofNat', Nat.mod_eq_of_lt]
      rcases L.meta_vendor i with hv | hv <;> omega
    refine ⟨UInt64.ofNat (L.metaLba i), UInt64.ofNat (L.vendorBase i), ?_, ?_, ?_⟩
    · rw [h.metadataSectorLbas_eq, List.getElem?_map, List.getElem?_range hi]
      rfl
    · rw [h.vendorDataBaseLbaAt_eq, if_pos hi]
    · rw [hregion, h.toNat_metaLba hi, hbase, h.toNat_rs]
      exact replica_tiles L i
  · rw [h.metadataSectorLbas_eq]
    refine List.nodup_range.map_on ?_
    intro i hi j hj he
    have hn := congrArg UInt64.toNat he
    rw [h.toNat_metaLba (List.mem_range.mp hi), h.toNat_metaLba (List.mem_range.mp hj)] at hn
    exact L.metaLba_injective hn
  · intro hf
    rw [← h.footers] at hf
    have hpos : 0 < L.count := by rw [Layout.count]; omega
    have hone : (1 : UInt64) ≤ volumeSectors := by
      have hfit := L.fits
      rw [UInt64.le_iff_toNat_le, ← h.total]
      change 1 ≤ L.total
      omega
    rw [h.metadataSectorLbas_eq, List.getLast?_map, List.getLast?_range, if_neg (by omega), Option.map_some,
      L.metaLba_last hf]
    congr 1
    apply UInt64.toNat_inj.mp
    rw [UInt64.toNat_ofNat', Nat.mod_eq_of_lt (by omega), UInt64.toNat_sub_of_le _ _ hone, h.total]
    rfl

/-- Every geometry that `compute_geometry` accepts for the counts of a header tiles the volume. -/
theorem computeGeometry_tiles_volume {sectorSize : UInt32} {volumeSectors : UInt64} {metadataSize : UInt32}
    {headers footers : UInt8} {g : Geometry}
    (hg : computeGeometry sectorSize volumeSectors ⟨headers.toUInt32, footers.toUInt32, metadataSize⟩ = .ok g) :
    TilesVolume sectorSize volumeSectors ⟨headers.toUInt32, footers.toUInt32, metadataSize⟩ g
      (replicaSectors metadataSize sectorSize)
      (metadataSectorLbas volumeSectors (replicaSectors metadataSize sectorSize) headers.toUInt32
        footers.toUInt32) := by
  have hcounts : headers.toUInt32.toNat + footers.toUInt32.toNat < 2 ^ 32 := by
    rw [UInt8.toNat_toUInt32, UInt8.toNat_toUInt32]
    have := headers.toNat_lt
    have := footers.toNat_lt
    omega
  obtain ⟨L, hL, rfl⟩ := (computeGeometry_ok_iff hcounts).mp hg
  exact tilesVolume_of_layout hL

/-- The floored layout of the source's own test. -/
theorem floored_tiles_volume :
    TilesVolume 4096 128 ⟨0, 2, 131172⟩ ⟨0, 64, 4096⟩ (replicaSectors 131172 4096)
      (metadataSectorLbas 128 (replicaSectors 131172 4096) 0 2) :=
  @computeGeometry_tiles_volume 4096 128 131172 0 2 _ (by decide)

end LayoutTiling
