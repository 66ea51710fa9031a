import VolumeCrypt.SectorIo

/-!
# Replica layout

`lib/common/src/jvck/options.rs` and the layout functions of `jvck/store.rs`, with
the machine arithmetic of the source. The abstract layout below them is a tiling of
a volume by header regions, the data region and footer regions; a geometry that
`compute_geometry` accepts is such a tiling, and no function of it wraps.
-/
namespace JvckLayout

open VckTypes

def minMetadataSize : UInt32 := 128 * 1024

structure JvckMetadataOptions where
  useHeader : UInt32
  useFooter : UInt32
  metadataSize : UInt32
  deriving DecidableEq, Repr

def JvckMetadataOptions.replicaCount (o : JvckMetadataOptions) : UInt32 := o.useHeader + o.useFooter

def JvckMetadataOptions.validate (o : JvckMetadataOptions) : VckResult Unit :=
  if o.metadataSize < minMetadataSize then
    .error (.validationFailed "metadata_size must be at least 128 KiB")
  else if o.replicaCount = 0 then .error (.validationFailed "use_header + use_footer must be >= 1")
  else .ok ()

structure Geometry where
  offsetSector : UInt64
  dataSectors : UInt64
  sectorSize : UInt32
  deriving DecidableEq, Repr

def replicaSectors (metadataSize sectorSize : UInt32) : UInt64 := (metadataSize / sectorSize).toUInt64

/-- Header replicas first, then footer replicas. -/
def metadataSectorLbas (volumeSectors rs : UInt64) (useHeader useFooter : UInt32) : List UInt64 :=
  let footerStart := volumeSectors - useFooter.toUInt64 * rs
  (List.range useHeader.toNat).map (fun i => UInt64.ofNat i * rs) ++
    (List.range useFooter.toNat).map fun j =>
      let regionStart := footerStart + UInt64.ofNat j * rs
      regionStart + rs - 1

/-- `None` if the index is out of range. -/
def vendorDataBaseLbaAt (volumeSectors rs : UInt64) (useHeader useFooter : UInt32) (replicaIndex : Nat) :
    Option UInt64 :=
  let uh := useHeader.toNat
  let uf := useFooter.toNat
  if replicaIndex < uh then some (UInt64.ofNat replicaIndex * rs + 1)
  else if replicaIndex < uh + uf then
    let j := UInt64.ofNat (replicaIndex - uh)
    let footerStart := volumeSectors - UInt64.ofNat uf * rs
    some (footerStart + j * rs)
  else none

def computeGeometry (sectorSize : UInt32) (volumeSectors : UInt64) (options : JvckMetadataOptions) :
    VckResult Geometry :=
  if sectorSize.toNat < 512 then .error (.unsupported "sector size smaller than 512")
  else
    let rs := replicaSectors options.metadataSize sectorSize
    if rs = 0 then .error (.validationFailed "metadata_size smaller than one sector")
    else
      let consumed := (options.useHeader + options.useFooter).toUInt64 * rs
      if consumed ≥ volumeSectors then
        .error (.validationFailed "volume too small to hold metadata replicas")
      else
        .ok { offsetSector := options.useHeader.toUInt64 * rs
              dataSectors := volumeSectors - consumed
              sectorSize := sectorSize }

/-! ## The abstract layout -/

/-- Header regions, a non-empty data region and footer regions, end to end. -/
structure Layout where
  replica : Nat
  headers : Nat
  footers : Nat
  total : Nat
  replica_pos : 0 < replica
  fits : (headers + footers) * replica < total

namespace Layout

variable (L : Layout)

def count : Nat := L.headers + L.footers
def dataStart : Nat := L.headers * L.replica
def dataCount : Nat := L.total - L.count * L.replica
def footerStart : Nat := L.total - L.footers * L.replica

/-- The first sector of region `i`, header regions first. -/
def regionStart (i : Nat) : Nat :=
  if i < L.headers then i * L.replica else L.footerStart + (i - L.headers) * L.replica

/-- The Metadata block is the first sector of a header region and the last of a footer region. -/
def metaLba (i : Nat) : Nat :=
  if i < L.headers then i * L.replica else L.footerStart + (i - L.headers) * L.replica + L.replica - 1

/-- The vendor sectors are the others. -/
def vendorBase (i : Nat) : Nat :=
  if i < L.headers then i * L.replica + 1 else L.footerStart + (i - L.headers) * L.replica

def InData (lba : Nat) : Prop := L.dataStart ≤ lba ∧ lba < L.dataStart + L.dataCount

def IsMeta (lba : Nat) : Prop := ∃ i, i < L.count ∧ lba = L.metaLba i

theorem consumed_eq : L.count * L.replica = L.dataStart + L.footers * L.replica := Nat.add_mul ..

theorem dataCount_pos : 0 < L.dataCount := Nat.sub_pos_of_lt L.fits

theorem consumed_lt : L.dataStart + L.footers * L.replica < L.total := by
  rw [← L.consumed_eq]
  exact L.fits

theorem dataEnd_eq : L.dataStart + L.dataCount = L.footerStart := by
  have h := L.consumed_lt
  rw [dataCount, consumed_eq, footerStart]
  omega

theorem footerEnd_eq : L.footerStart + L.footers * L.replica = L.total := by
  have h := L.consumed_lt
  rw [footerStart]
  omega

theorem mul_step {a b : Nat} (h : a < b) : a * L.replica + L.replica ≤ b * L.replica := by
  rw [← Nat.succ_mul]
  exact Nat.mul_le_mul_right _ h

/-- A header region lies before the data region and a footer region after it. -/
theorem region_bounds {i : Nat} (hi : i < L.count) :
    (L.regionStart i + L.replica ≤ L.dataStart) ∨
      (L.footerStart ≤ L.regionStart i ∧ L.regionStart i + L.replica ≤ L.total) := by
  rw [regionStart]
  split
  · rename_i h
    exact .inl (L.mul_step h)
  · rename_i h
    have hlt : i - L.headers < L.footers := by
      rw [count] at hi
      omega
    have hs := L.mul_step hlt
    have he := L.footerEnd_eq
    exact .inr ⟨Nat.le_add_right _ _, by omega⟩

/-- Regions come in the order of their indices. -/
theorem region_step {i j : Nat} (h : i < j) :
    L.regionStart i + L.replica ≤ L.regionStart j := by
  have hd := L.dataEnd_eq
  rw [regionStart, regionStart]
  by_cases hjh : j < L.headers
  · rw [if_pos hjh, if_pos (by omega)]
    exact L.mul_step h
  · rw [if_neg hjh]
    by_cases hih : i < L.headers
    · rw [if_pos hih]
      have hs : i * L.replica + L.replica ≤ L.dataStart := L.mul_step hih
      omega
    · rw [if_neg hih]
      have hs := L.mul_step (show i - L.headers < j - L.headers by omega)
      omega

theorem region_disjoint {i j : Nat} (h : i ≠ j) :
    L.regionStart i + L.replica ≤ L.regionStart j ∨ L.regionStart j + L.replica ≤ L.regionStart i := by
  rcases Nat.lt_or_gt_of_ne h with hlt | hgt
  · exact .inl (L.region_step hlt)
  · exact .inr (L.region_step hgt)

/-- The Metadata sector and the vendor sectors share their region. -/
theorem meta_vendor (i : Nat) :
    (L.metaLba i = L.regionStart i ∧ L.vendorBase i = L.regionStart i + 1) ∨
      (L.metaLba i + 1 = L.regionStart i + L.replica ∧ L.vendorBase i = L.regionStart i) := by
  have hp := L.replica_pos
  rw [metaLba, regionStart, vendorBase]
  split
  · exact .inl ⟨rfl, rfl⟩
  · exact .inr ⟨by omega, rfl⟩

theorem metaLba_mem_region (i : Nat) :
    L.regionStart i ≤ L.metaLba i ∧ L.metaLba i < L.regionStart i + L.replica := by
  have hp := L.replica_pos
  rcases L.meta_vendor i with h | h <;> omega

theorem vendor_mem_region {i r : Nat} (hr : r < L.replica - 1) :
    L.regionStart i ≤ L.vendorBase i + r ∧ L.vendorBase i + r < L.regionStart i + L.replica ∧
      L.vendorBase i + r ≠ L.metaLba i := by
  rcases L.meta_vendor i with h | h <;> omega

/-- No sector of a replica region is a data sector. -/
theorem region_not_data {i lba : Nat} (hi : i < L.count) (hl : L.regionStart i ≤ lba)
    (hu : lba < L.regionStart i + L.replica) : ¬ L.InData lba := by
  intro hd
  have he := L.dataEnd_eq
  obtain ⟨h₁, h₂⟩ := hd
  rcases L.region_bounds hi with h | h <;> omega

theorem region_lt_total {i lba : Nat} (hi : i < L.count) (hu : lba < L.regionStart i + L.replica) : lba < L.total := by
  have he := L.dataEnd_eq
  have hf := L.footerEnd_eq
  have hd := L.dataCount_pos
  rcases L.region_bounds hi with h | h <;> omega

theorem metaLba_not_data {i : Nat} (hi : i < L.count) : ¬ L.InData (L.metaLba i) :=
  L.region_not_data hi (L.metaLba_mem_region i).1 (L.metaLba_mem_region i).2

theorem metaLba_lt_total {i : Nat} (hi : i < L.count) : L.metaLba i < L.total :=
  L.region_lt_total hi (L.metaLba_mem_region i).2

theorem metaLba_injective {i j : Nat} (h : L.metaLba i = L.metaLba j) : i = j := by
  by_contra hne
  have h₁ := L.metaLba_mem_region i
  have h₂ := L.metaLba_mem_region j
  rcases L.region_disjoint hne with hd | hd <;> omega

theorem vendor_not_meta {i r : Nat} (j : Nat) (hr : r < L.replica - 1) : L.vendorBase i + r ≠ L.metaLba j := by
  have h₁ := L.vendor_mem_region (i := i) hr
  have h₂ := L.metaLba_mem_region j
  by_cases hij : i = j
  · subst hij
    exact h₁.2.2
  · rcases L.region_disjoint hij with hd | hd <;> omega

theorem vendor_not_data {i r : Nat} (hi : i < L.count) (hr : r < L.replica - 1) :
    ¬ L.InData (L.vendorBase i + r) :=
  L.region_not_data hi (L.vendor_mem_region hr).1 (L.vendor_mem_region hr).2.1

theorem vendor_injective {i r j q : Nat} (hr : r < L.replica - 1) (hq : q < L.replica - 1)
    (h : L.vendorBase i + r = L.vendorBase j + q) : i = j ∧ r = q := by
  have h₁ := L.vendor_mem_region (i := i) hr
  have h₂ := L.vendor_mem_region (i := j) hq
  have hij : i = j := by
    by_contra hne
    rcases L.region_disjoint hne with hd | hd <;> omega
  subst hij
  exact ⟨rfl, by omega⟩

/-- With a footer the last Metadata sector is the last sector of the volume. -/
theorem metaLba_last (hf : 0 < L.footers) : L.metaLba (L.count - 1) = L.total - 1 := by
  have he := L.footerEnd_eq
  obtain ⟨f, hfe⟩ : ∃ f, L.footers = f + 1 := ⟨L.footers - 1, by omega⟩
  rw [hfe, Nat.succ_mul] at he
  rw [metaLba, if_neg (by rw [count]; omega), show L.count - 1 - L.headers = f by rw [count]; omega]
  omega

/-- With a header the first Metadata sector is sector 0. -/
theorem metaLba_first (hh : 0 < L.headers) : L.metaLba 0 = 0 := by
  rw [metaLba, if_pos hh, Nat.zero_mul]

/-- Without a footer the last sector is a data sector. -/
theorem last_inData (hf : L.footers = 0) : L.InData (L.total - 1) := by
  have hd := L.dataEnd_eq
  have he := L.footerEnd_eq
  have hp := L.dataCount_pos
  rw [hf, Nat.zero_mul] at he
  exact ⟨by omega, by omega⟩

/-- Without a header sector 0 is a data sector. -/
theorem first_inData (hh : L.headers = 0) : L.InData 0 := by
  have hp := L.dataCount_pos
  have hs : L.dataStart = 0 := by rw [dataStart, hh, Nat.zero_mul]
  exact ⟨by omega, by omega⟩

end Layout

/-! ## The machine functions compute the layout -/

/-- `L` is the layout of `o` on a device of this sector size and count. -/
structure Layout.Of (L : Layout) (sectorSize : UInt32) (volumeSectors : UInt64) (o : JvckMetadataOptions) : Prop where
  replica : L.replica = o.metadataSize.toNat / sectorSize.toNat
  headers : L.headers = o.useHeader.toNat
  footers : L.footers = o.useFooter.toNat
  total : L.total = volumeSectors.toNat
  sectorSize : 512 ≤ sectorSize.toNat
  counts : o.useHeader.toNat + o.useFooter.toNat < 2 ^ 32

theorem toNat_replicaSectors (metadataSize sectorSize : UInt32) :
    (replicaSectors metadataSize sectorSize).toNat = metadataSize.toNat / sectorSize.toNat := by
  rw [replicaSectors, UInt32.toNat_toUInt64, UInt32.toNat_div]

section Machine

variable {sectorSize : UInt32} {volumeSectors : UInt64} {o : JvckMetadataOptions}

theorem toNat_mul_of_lt {a b : UInt64} (h : a.toNat * b.toNat < 2 ^ 64) : (a * b).toNat = a.toNat * b.toNat := by
  rw [UInt64.toNat_mul, Nat.mod_eq_of_lt h]

theorem replica_lt (hs : 512 ≤ sectorSize.toNat) : o.metadataSize.toNat / sectorSize.toNat < 2 ^ 23 := by
  have hm : o.metadataSize.toNat < 2 ^ 32 := o.metadataSize.toNat_lt
  apply Nat.div_lt_of_lt_mul
  calc o.metadataSize.toNat < 512 * 2 ^ 23 := hm
    _ ≤ sectorSize.toNat * 2 ^ 23 := Nat.mul_le_mul_right _ hs

/-- Counts that do not wrap keep every product of the layout in 64 bits. -/
theorem mul_replica_lt (hs : 512 ≤ sectorSize.toNat) {k : Nat} (hk : k < 2 ^ 32) :
    k * (replicaSectors o.metadataSize sectorSize).toNat < 2 ^ 64 := by
  rw [toNat_replicaSectors]
  calc k * (o.metadataSize.toNat / sectorSize.toNat)
      ≤ 2 ^ 32 * 2 ^ 23 := Nat.mul_le_mul (Nat.le_of_lt hk) (Nat.le_of_lt (replica_lt hs))
    _ < 2 ^ 64 := by decide

theorem toNat_ofNat_mul_replica (hs : 512 ≤ sectorSize.toNat) {k : Nat} (hk : k < 2 ^ 32) :
    (UInt64.ofNat k * replicaSectors o.metadataSize sectorSize).toNat =
      k * (o.metadataSize.toNat / sectorSize.toNat) := by
  have hc : (UInt64.ofNat k).toNat = k := by
    rw [UInt64.toNat_ofNat']
    exact Nat.mod_eq_of_lt (hk.trans (by decide))
  have hm := mul_replica_lt (o := o) hs hk
  rw [toNat_mul_of_lt (by rw [hc]; exact hm), hc, toNat_replicaSectors]

theorem toUInt64_eq (n : UInt32) : n.toUInt64 = UInt64.ofNat n.toNat := by
  apply UInt64.toNat_inj.mp
  rw [UInt32.toNat_toUInt64, UInt64.toNat_ofNat']
  exact (Nat.mod_eq_of_lt (n.toNat_lt.trans (by decide))).symm

/-- The geometry that a layout stands for. -/
def Layout.geometry (L : Layout) (sectorSize : UInt32) : Geometry :=
  { offsetSector := UInt64.ofNat L.dataStart
    dataSectors := UInt64.ofNat L.dataCount
    sectorSize := sectorSize }

namespace Layout.Of

variable {L : Layout} (h : L.Of sectorSize volumeSectors o)

include h

theorem unique {L' : Layout} (h' : L'.Of sectorSize volumeSectors o) : L = L' := by
  obtain ⟨r, a, b, t, _, _⟩ := L
  obtain ⟨r', a', b', t', _, _⟩ := L'
  obtain rfl : r = r' := h.replica.trans h'.replica.symm
  obtain rfl : a = a' := h.headers.trans h'.headers.symm
  obtain rfl : b = b' := h.footers.trans h'.footers.symm
  obtain rfl : t = t' := h.total.trans h'.total.symm
  rfl

theorem total_lt : L.total < 2 ^ 64 := by
  rw [h.total]
  exact volumeSectors.toNat_lt

theorem count_lt : L.count < 2 ^ 32 := by
  rw [Layout.count, h.headers, h.footers]
  exact h.counts

theorem toNat_rs : (replicaSectors o.metadataSize sectorSize).toNat = L.replica := by
  rw [toNat_replicaSectors, h.replica]

theorem toNat_ofNat_mul {k : Nat} (hk : k < 2 ^ 32) :
    (UInt64.ofNat k * replicaSectors o.metadataSize sectorSize).toNat = k * L.replica := by
  rw [toNat_ofNat_mul_replica h.sectorSize hk, h.replica]

theorem headers_lt : L.headers < 2 ^ 32 := by
  have hc := h.count_lt
  rw [Layout.count] at hc
  omega

theorem footers_lt : L.footers < 2 ^ 32 := by
  have hc := h.count_lt
  rw [Layout.count] at hc
  omega

theorem toNat_footerStart :
    (volumeSectors - UInt64.ofNat L.footers * replicaSectors o.metadataSize sectorSize).toNat = L.footerStart := by
  have hm := h.toNat_ofNat_mul h.footers_lt
  have hle := L.consumed_lt
  rw [h.total] at hle
  rw [UInt64.toNat_sub_of_le, hm, Layout.footerStart, h.total]
  rw [UInt64.le_iff_toNat_le, hm]
  omega

/-- `compute_geometry` accepts the layout. -/
theorem computeGeometry_eq : computeGeometry sectorSize volumeSectors o = .ok (L.geometry sectorSize) := by
  have hrs := h.toNat_rs
  have hpos := L.replica_pos
  have hlt := L.fits
  have hcount : (o.useHeader + o.useFooter).toUInt64 = UInt64.ofNat L.count := by
    rw [toUInt64_eq, UInt32.toNat_add, Nat.mod_eq_of_lt h.counts, Layout.count, h.headers, h.footers]
  have hcons := h.toNat_ofNat_mul h.count_lt
  have hdata := h.toNat_ofNat_mul h.headers_lt
  have htot := h.total
  rw [computeGeometry, if_neg (by have := h.sectorSize; omega)]
  simp only
  rw [if_neg (by rw [← UInt64.toNat_inj, hrs]; exact Nat.ne_of_gt hpos), hcount,
    if_neg (by rw [ge_iff_le, UInt64.le_iff_toNat_le, hcons, ← htot]; exact Nat.not_le.mpr hlt)]
  congr 2
  · apply UInt64.toNat_inj.mp
    rw [toUInt64_eq, ← h.headers, hdata, UInt64.toNat_ofNat', Nat.mod_eq_of_lt]
    · rfl
    · have := L.consumed_lt
      have := h.total_lt
      omega
  · apply UInt64.toNat_inj.mp
    rw [UInt64.toNat_sub_of_le, hcons, UInt64.toNat_ofNat', Nat.mod_eq_of_lt, Layout.dataCount, htot]
    · have := h.total_lt
      rw [Layout.dataCount]
      omega
    · rw [UInt64.le_iff_toNat_le, hcons, ← htot]
      exact Nat.le_of_lt hlt

theorem toNat_metaLba {i : Nat} (hi : i < L.count) : (UInt64.ofNat (L.metaLba i)).toNat = L.metaLba i := by
  rw [UInt64.toNat_ofNat']
  exact Nat.mod_eq_of_lt ((L.metaLba_lt_total hi).trans h.total_lt)

/-- The machine list of Metadata sectors is the layout's. -/
theorem metadataSectorLbas_eq :
    metadataSectorLbas volumeSectors (replicaSectors o.metadataSize sectorSize) o.useHeader o.useFooter =
      (List.range L.count).map fun i => UInt64.ofNat (L.metaLba i) := by
  have hf := h.toNat_footerStart
  have hrs := h.toNat_rs
  rw [metadataSectorLbas, Layout.count, List.range_add, List.map_append, List.map_map, ← h.headers, ← h.footers]
  simp only
  rw [toUInt64_eq, ← h.footers]
  congr 1
  · apply List.map_congr_left
    intro i hi
    have hi := List.mem_range.mp hi
    apply UInt64.toNat_inj.mp
    rw [h.toNat_ofNat_mul (hi.trans h.headers_lt), h.toNat_metaLba (by rw [Layout.count]; omega), Layout.metaLba,
      if_pos hi]
  · apply List.map_congr_left
    intro j hj
    have hj := List.mem_range.mp hj
    have hcount : L.headers + j < L.count := by rw [Layout.count]; omega
    have hm := h.toNat_ofNat_mul (hj.trans h.footers_lt)
    have hstep := L.mul_step hj
    have hend := L.footerEnd_eq
    have htot := h.total_lt
    have hpos := L.replica_pos
    have hml : L.metaLba (L.headers + j) = L.footerStart + j * L.replica + L.replica - 1 := by
      rw [Layout.metaLba, if_neg (by omega), Nat.add_sub_cancel_left]
    apply UInt64.toNat_inj.mp
    simp only [Function.comp_apply]
    rw [h.toNat_metaLba hcount, hml, UInt64.toNat_sub_of_le]
    · rw [UInt64.toNat_add, UInt64.toNat_add, hf, hm, hrs, Nat.mod_eq_of_lt (a := L.footerStart + _) (by omega),
        Nat.mod_eq_of_lt (by omega)]
      rfl
    · rw [UInt64.le_iff_toNat_le, UInt64.toNat_add, UInt64.toNat_add, hf, hm, hrs,
        Nat.mod_eq_of_lt (a := L.footerStart + _) (by omega), Nat.mod_eq_of_lt (by omega)]
      change 1 ≤ _
      omega

theorem lt_of_mem_metadataSectorLbas {lba : UInt64}
    (hmem : lba ∈ metadataSectorLbas volumeSectors (replicaSectors o.metadataSize sectorSize) o.useHeader o.useFooter) :
    lba.toNat < volumeSectors.toNat := by
  rw [h.metadataSectorLbas_eq] at hmem
  obtain ⟨i, hi, rfl⟩ := List.mem_map.mp hmem
  have hlt := L.metaLba_lt_total (List.mem_range.mp hi)
  rw [h.toNat_metaLba (List.mem_range.mp hi)]
  exact hlt.trans_eq h.total

theorem vendorDataBaseLbaAt_eq (i : Nat) :
    vendorDataBaseLbaAt volumeSectors (replicaSectors o.metadataSize sectorSize) o.useHeader o.useFooter i =
      if i < L.count then some (UInt64.ofNat (L.vendorBase i)) else none := by
  have hf := h.toNat_footerStart
  have htot := h.total_lt
  have hend := L.footerEnd_eq
  have hdata := L.consumed_lt
  have hpos := L.replica_pos
  rw [vendorDataBaseLbaAt, ← h.headers, ← h.footers]
  simp only
  by_cases hi : i < L.headers
  · have hm := h.toNat_ofNat_mul (hi.trans h.headers_lt)
    have hstep : i * L.replica + L.replica ≤ L.dataStart := L.mul_step hi
    rw [if_pos hi, if_pos (by rw [Layout.count]; omega)]
    congr 1
    apply UInt64.toNat_inj.mp
    rw [UInt64.toNat_add, hm, UInt64.toNat_ofNat', Layout.vendorBase, if_pos hi]
    rfl
  · rw [if_neg hi]
    by_cases hj : i < L.headers + L.footers
    · have hlt : i - L.headers < L.footers := by omega
      have hm := h.toNat_ofNat_mul (hlt.trans h.footers_lt)
      have hstep := L.mul_step hlt
      rw [if_pos hj, if_pos (show i < L.count from hj)]
      congr 1
      apply UInt64.toNat_inj.mp
      rw [UInt64.toNat_add, hf, hm, UInt64.toNat_ofNat', Layout.vendorBase, if_neg hi]
    · rw [if_neg hj, if_neg (show ¬ i < L.count from hj)]

end Layout.Of

/-- What `compute_geometry` has checked when it accepts. -/
theorem computeGeometry_inv {g : Geometry} (hg : computeGeometry sectorSize volumeSectors o = .ok g) :
    512 ≤ sectorSize.toNat ∧ 0 < o.metadataSize.toNat / sectorSize.toNat ∧
      ((o.useHeader + o.useFooter).toUInt64 * replicaSectors o.metadataSize sectorSize).toNat <
        volumeSectors.toNat ∧
      g.dataSectors =
        volumeSectors - (o.useHeader + o.useFooter).toUInt64 * replicaSectors o.metadataSize sectorSize := by
  simp only [computeGeometry] at hg
  split at hg
  · cases hg
  · rename_i hs
    split at hg
    · cases hg
    · rename_i hr
      split at hg
      · cases hg
      · rename_i hfit
        cases hg
        have hpos : 0 < (replicaSectors o.metadataSize sectorSize).toNat :=
          Nat.pos_of_ne_zero fun h₀ => hr (UInt64.toNat_inj.mp h₀)
        rw [toNat_replicaSectors] at hpos
        rw [ge_iff_le, UInt64.not_le, UInt64.lt_iff_toNat_lt] at hfit
        exact ⟨Nat.le_of_not_lt hs, hpos, hfit, rfl⟩

theorem computeGeometry_offset {g : Geometry}
    (hg : computeGeometry sectorSize volumeSectors o = .ok g) :
    g.offsetSector = o.useHeader.toUInt64 * replicaSectors o.metadataSize sectorSize := by
  simp only [computeGeometry] at hg
  split at hg
  · cases hg
  · split at hg
    · cases hg
    · split at hg
      · cases hg
      · cases hg
        rfl

/-- The machine geometry in numbers; only the replica count can have wrapped. -/
theorem toNat_geometry {g : Geometry}
    (hg : computeGeometry sectorSize volumeSectors o = .ok g) :
    g.offsetSector.toNat = o.useHeader.toNat * (o.metadataSize.toNat / sectorSize.toNat) ∧
      g.dataSectors.toNat = volumeSectors.toNat -
        (o.useHeader.toNat + o.useFooter.toNat) % 2 ^ 32 * (o.metadataSize.toNat / sectorSize.toNat) ∧
      (o.useHeader.toNat + o.useFooter.toNat) % 2 ^ 32 * (o.metadataSize.toNat / sectorSize.toNat) <
        volumeSectors.toNat := by
  obtain ⟨hs, _, hfit, hdata⟩ := computeGeometry_inv hg
  have hcount : ((o.useHeader + o.useFooter).toUInt64 * replicaSectors o.metadataSize sectorSize).toNat =
      (o.useHeader.toNat + o.useFooter.toNat) % 2 ^ 32 * (o.metadataSize.toNat / sectorSize.toNat) := by
    rw [toUInt64_eq, toNat_ofNat_mul_replica hs (UInt32.toNat_lt _), UInt32.toNat_add]
  have hoff : g.offsetSector = o.useHeader.toUInt64 * replicaSectors o.metadataSize sectorSize :=
    computeGeometry_offset hg
  rw [hcount] at hfit
  refine ⟨?_, ?_, hfit⟩
  · rw [hoff, toUInt64_eq, toNat_ofNat_mul_replica hs (UInt32.toNat_lt _)]
  · rw [hdata, UInt64.toNat_sub_of_le, hcount]
    rw [UInt64.le_iff_toNat_le, hcount]
    exact Nat.le_of_lt hfit

/-- `compute_geometry` accepts exactly the options that lay out a tiling of the volume. -/
theorem computeGeometry_ok_iff (hc : o.useHeader.toNat + o.useFooter.toNat < 2 ^ 32) {g : Geometry} :
    computeGeometry sectorSize volumeSectors o = .ok g ↔
      ∃ L : Layout, L.Of sectorSize volumeSectors o ∧ g = L.geometry sectorSize := by
  constructor
  · intro hg
    obtain ⟨hs, hpos, hfit, _⟩ := computeGeometry_inv hg
    rw [toUInt64_eq, UInt32.toNat_add, Nat.mod_eq_of_lt hc, toNat_ofNat_mul_replica hs hc] at hfit
    let L : Layout := ⟨_, _, _, _, hpos, hfit⟩
    have hL : L.Of sectorSize volumeSectors o := ⟨rfl, rfl, rfl, rfl, hs, hc⟩
    refine ⟨L, hL, ?_⟩
    exact Except.ok.inj (hg.symm.trans hL.computeGeometry_eq)
  · rintro ⟨L, hL, rfl⟩
    exact hL.computeGeometry_eq

end Machine

end JvckLayout
