import VolumeCrypt.TailRelocation
import VolumeCrypt.FilterIo

/-!
# Shrinking the file system for the footer

`ShrinkVolumeTail` of `sdk/volume_windows.go`, called by the sample's `prepare` with the size of all footer
replicas. Lengths are rounded to sectors, the tail is rounded to clusters, and the layout that
the driver computes later rounds each replica to sectors. The integers of the source keep their width.
-/
namespace VolumeShrink

open VckTypes JvckLayout ClusterScanner TailRelocation VolumeSweep

variable {σ φ : Type}

/-- The fields of `ntfsVolumeDataBuffer` that are read. -/
structure NtfsVolumeData where
  totalClusters : Int64
  bytesPerCluster : UInt32

structure ShrinkVolumeInformation where
  shrinkRequestType : UInt32
  flags : UInt64
  newNumberOfSectors : Int64
  deriving DecidableEq

def shrinkPrepare (targetSectors : Int64) : ShrinkVolumeInformation := ⟨1, 0, targetSectors⟩
def shrinkCommit : ShrinkVolumeInformation := ⟨2, 0, 0⟩
def shrinkAbort : ShrinkVolumeInformation := ⟨3, 0, 0⟩

inductive ShrinkReply where
  | done
  | accessDenied
  | failed
  deriving DecidableEq

/-- The volume device with its file system: whether it opens, what it reports, how it shrinks, and what a walk
of its root meets. -/
structure Driver (σ φ : Type) extends Kernel σ φ where
  opens : σ → Bool
  lengthInfo : σ → Option Int64
  bytesPerSector : σ → Option UInt32
  ntfsVolumeData : σ → Option NtfsVolumeData
  shrinkVolume : σ → ShrinkVolumeInformation → ShrinkReply × σ
  entries : σ → Option (List (WalkEntry φ))

inductive ShrinkError where
  | zeroTail
  | openVolume
  | volumeLength
  | driveGeometry
  | zeroBytesPerSector
  | ntfsVolumeData
  | targetSize
  | targetSectors
  | prepare
  | relocation
  | commit
  | divisionByZero
  deriving DecidableEq

/-- The volume, the shrink requests made so far and the thresholds of the relocations, latest first. -/
structure Session (σ φ : Type) where
  world : World σ φ
  shrinks : List ShrinkVolumeInformation
  thresholds : List Int64

def Session.shrink (D : Driver σ φ) (t : Session σ φ) (q : ShrinkVolumeInformation) : ShrinkReply × Session σ φ :=
  let (reply, v) := D.shrinkVolume t.world.volume q
  (reply, { t with world := ⟨v, t.world.requests⟩, shrinks := q :: t.shrinks })

def readVolumeLengthAndSectorSizeFromHandle (D : Driver σ φ) (v : σ) : Except ShrinkError (Int64 × UInt32) :=
  match D.lengthInfo v with
  | none => .error .volumeLength
  | some length =>
    match D.bytesPerSector v with
    | none => .error .driveGeometry
    | some bytesPerSector => if bytesPerSector = 0 then .error .zeroBytesPerSector else .ok (length, bytesPerSector)

/-- The cluster from which on the relocation moves everything away. -/
def thresholdLCN (reservedTailBytes : UInt64) (ntfsData : NtfsVolumeData) : Int64 :=
  let bytesPerCluster := ntfsData.bytesPerCluster.toUInt64
  let thresholdClusters := ((reservedTailBytes + bytesPerCluster - 1) / bytesPerCluster).toInt64
  ntfsData.totalClusters - thresholdClusters

/-- The commit loop: a refused commit moves clusters out of the tail, and is repeated if any was moved. A
division by a cluster size of zero stops the program. -/
def commitLoop (D : Driver σ φ) (reservedTailBytes : UInt64) (ntfsData : NtfsVolumeData) :
    Nat → Session σ φ → Option (Except ShrinkError Unit × Session σ φ)
  | 0, _ => none
  | fuel + 1, t =>
    match t.shrink D shrinkCommit with
    | (.done, t) => some (.ok (), t)
    | (.failed, t) => some (.error .commit, (t.shrink D shrinkAbort).2)
    | (.accessDenied, t) =>
      if ntfsData.bytesPerCluster = 0 then some (.error .divisionByZero, t)
      else
        let threshold := thresholdLCN reservedTailBytes ntfsData
        match moveTailClustersBeforeThreshold D.toKernel (D.entries t.world.volume) threshold.toInt fuel t.world with
        | none => none
        | some (outcome, w) =>
          let t : Session σ φ := { t with world := w, thresholds := threshold :: t.thresholds }
          match outcome with
          | none => some (.error .relocation, t)
          | some true => commitLoop D reservedTailBytes ntfsData fuel t
          | some false => some (.error .commit, (t.shrink D shrinkAbort).2)

def targetSectors (volumeLength : Int64) (bytesPerSector : UInt32) (reservedTailBytes : UInt64) : Int64 :=
  (volumeLength - reservedTailBytes.toInt64) / bytesPerSector.toUInt64.toInt64

def shrinkVolumeTail (D : Driver σ φ) (reservedTailBytes : UInt64) (fuel : Nat) (v : σ) :
    Option (Except ShrinkError Unit × Session σ φ) :=
  let t : Session σ φ := ⟨⟨v, []⟩, [], []⟩
  if reservedTailBytes = 0 then some (.error .zeroTail, t)
  else if !D.opens v then some (.error .openVolume, t)
  else
    match readVolumeLengthAndSectorSizeFromHandle D v with
    | .error e => some (.error e, t)
    | .ok (volumeLength, bytesPerSector) =>
      match D.ntfsVolumeData v with
      | none => some (.error .ntfsVolumeData, t)
      | some ntfsData =>
        let targetBytes := volumeLength - reservedTailBytes.toInt64
        if targetBytes ≤ 0 then some (.error .targetSize, t)
        else
          let target := targetSectors volumeLength bytesPerSector reservedTailBytes
          if target ≤ 0 then some (.error .targetSectors, t)
          else
            match t.shrink D (shrinkPrepare target) with
            | (.done, t) => commitLoop D reservedTailBytes ntfsData fuel t
            | (_, t) => some (.error .prepare, t)

/-- The tail that `prepare` of the sample asks for. -/
def reservedTail (useFooter metadataSize : UInt32) : UInt64 := useFooter.toUInt64 * metadataSize.toUInt64

/-! ## Machine numbers -/

theorem toInt_toInt64 {n : UInt64} (h : n.toNat < 2 ^ 63) : n.toInt64.toInt = n.toNat := by
  have hbits : 2 * n.toBitVec.toNat < 2 ^ 64 := by
    rw [UInt64.toNat_toBitVec]
    omega
  exact BitVec.toInt_eq_toNat_of_lt hbits

/-- Subtraction of two counts does not wrap. -/
theorem toInt_sub_of_nonneg {a b : Int64} (ha : 0 ≤ a.toInt) (hb : 0 ≤ b.toInt) :
    (a - b).toInt = a.toInt - b.toInt := by
  have ha' := a.toInt_lt
  have hb' := b.toInt_lt
  rw [Int64.toInt_sub]
  exact Int.bmod_eq_of_le (by omega) (by omega)

theorem toNat_reservedTail (useFooter metadataSize : UInt32) :
    (reservedTail useFooter metadataSize).toNat = useFooter.toNat * metadataSize.toNat := by
  have hf : useFooter.toNat < 2 ^ 32 := useFooter.toNat_lt
  have hm : metadataSize.toNat < 2 ^ 32 := metadataSize.toNat_lt
  have hlt : useFooter.toNat * metadataSize.toNat < 2 ^ 64 := by
    calc useFooter.toNat * metadataSize.toNat < 2 ^ 32 * 2 ^ 32 := Nat.mul_lt_mul'' hf hm
      _ = 2 ^ 64 := by decide
  rw [reservedTail, UInt64.toNat_mul, UInt32.toNat_toUInt64, UInt32.toNat_toUInt64, Nat.mod_eq_of_lt hlt]

/-- The requested count, for a tail that is shorter than the volume. -/
theorem toInt_targetSectors {volumeLength : Int64} {bytesPerSector : UInt32} {reserved : UInt64}
    (hlt : (reserved.toNat : Int) < volumeLength.toInt) :
    (targetSectors volumeLength bytesPerSector reserved).toInt =
      (volumeLength.toInt - reserved.toNat) / bytesPerSector.toNat := by
  have hmax := volumeLength.toInt_lt
  have hr : reserved.toInt64.toInt = reserved.toNat := toInt_toInt64 (by omega)
  have hs : bytesPerSector.toUInt64.toInt64.toInt = bytesPerSector.toNat := by
    have := bytesPerSector.toNat_lt
    rw [toInt_toInt64, UInt32.toNat_toUInt64]
    rw [UInt32.toNat_toUInt64]
    omega
  have hsub : (volumeLength - reserved.toInt64).toInt = volumeLength.toInt - reserved.toNat := by
    rw [toInt_sub_of_nonneg (by omega) (by omega), hr]
  rw [targetSectors, Int64.toInt_div_of_ne_right, hsub, hs, Int.tdiv_eq_ediv_of_nonneg (by omega)]
  intro hneg
  rw [hneg] at hs
  have hone : (-1 : Int64).toInt = -1 := rfl
  omega

/-- The number of units of size `b` that `n` bytes touch is at most `n`, and they cover the bytes. -/
theorem ceilDiv_bounds (n : Nat) {b : Nat} (hb : 0 < b) :
    (n + b - 1) / b ≤ n ∧ n ≤ (n + b - 1) / b * b := by
  have hmod := Nat.mod_lt (n + b - 1) hb
  have hdiv := Nat.div_add_mod (n + b - 1) b
  rw [Nat.mul_comm] at hdiv
  constructor
  · apply Nat.le_of_lt_succ
    apply Nat.div_lt_of_lt_mul
    have : n ≤ b * n := Nat.le_mul_of_pos_left n hb
    rw [Nat.mul_succ]
    omega
  · omega

theorem toInt_thresholdLCN (reserved : UInt64) {ntfsData : NtfsVolumeData} {clusters : Nat}
    (hclusters : ntfsData.totalClusters.toInt = clusters) (hpos : 0 < ntfsData.bytesPerCluster.toNat)
    (hr : reserved.toNat < 2 ^ 63) :
    (thresholdLCN reserved ntfsData).toInt =
      clusters - ((reserved.toNat + ntfsData.bytesPerCluster.toNat - 1) / ntfsData.bytesPerCluster.toNat : Nat) := by
  have hb : ntfsData.bytesPerCluster.toNat < 2 ^ 32 := ntfsData.bytesPerCluster.toNat_lt
  have hadd : (reserved + ntfsData.bytesPerCluster.toUInt64).toNat =
      reserved.toNat + ntfsData.bytesPerCluster.toNat := by
    rw [UInt64.toNat_add, UInt32.toNat_toUInt64]
    omega
  have hone : (1 : UInt64).toNat = 1 := rfl
  have hsub : (reserved + ntfsData.bytesPerCluster.toUInt64 - 1).toNat =
      reserved.toNat + ntfsData.bytesPerCluster.toNat - 1 := by
    rw [UInt64.toNat_sub_of_le, hadd, hone]
    rw [UInt64.le_iff_toNat_le, hadd, hone]
    omega
  have hdiv : ((reserved + ntfsData.bytesPerCluster.toUInt64 - 1) / ntfsData.bytesPerCluster.toUInt64).toNat =
      (reserved.toNat + ntfsData.bytesPerCluster.toNat - 1) / ntfsData.bytesPerCluster.toNat := by
    rw [UInt64.toNat_div, hsub, UInt32.toNat_toUInt64]
  have hle := (ceilDiv_bounds reserved.toNat hpos).1
  have hceil := toInt_toInt64 (n := (reserved + ntfsData.bytesPerCluster.toUInt64 - 1) /
    ntfsData.bytesPerCluster.toUInt64) (by omega)
  rw [thresholdLCN, toInt_sub_of_nonneg (by omega) (by omega), hclusters, hceil, hdiv]

/-! ## Bytes, sectors and clusters -/

/-- Whole sectors in front of the tail, plus the whole sectors of the replicas, fit the whole sectors of the
volume. -/
theorem target_add_replicas_le (length replicas size unit : Nat) (h : replicas * size ≤ length) :
    (length - replicas * size) / unit + replicas * (size / unit) ≤ length / unit := by
  rcases Nat.eq_zero_or_pos unit with rfl | hunit
  · simp
  · rw [Nat.le_div_iff_mul_le hunit, Nat.add_mul, Nat.mul_assoc]
    have hfront : (length - replicas * size) / unit * unit ≤ length - replicas * size := Nat.div_mul_le_self _ _
    have htail : replicas * (size / unit * unit) ≤ replicas * size :=
      Nat.mul_le_mul_left replicas (Nat.div_mul_le_self size unit)
    omega

/-- The threshold is at most the number of whole clusters in front of the tail. -/
theorem threshold_le {clusters bytes length tail : Nat} (hb : 0 < bytes) (hfit : clusters * bytes ≤ length)
    (htail : tail ≤ length) :
    (clusters : Int) - ((tail + bytes - 1) / bytes : Nat) ≤ ((length - tail) / bytes : Nat) := by
  have hcover := (ceilDiv_bounds tail hb).2
  generalize (tail + bytes - 1) / bytes = ceil at hcover ⊢
  have hmul : (clusters - ceil) * bytes ≤ length - tail := by
    rw [Nat.sub_mul]
    omega
  have hle : clusters - ceil ≤ (length - tail) / bytes := (Nat.le_div_iff_mul_le hb).mpr hmul
  generalize (length - tail) / bytes = whole at hle ⊢
  omega

/-- A cluster that reaches past a byte lies at or above the whole clusters in front of it. -/
theorem div_le_of_lt_succ_mul {c bytes n : Nat} (h : n < (c + 1) * bytes) : n / bytes ≤ c :=
  Nat.le_of_lt_succ (Nat.div_lt_of_lt_mul (by rwa [Nat.mul_comm]))

/-! ## The layout in front of the tail -/

section

variable {sectorSize useFooter metadataSize : UInt32} {volumeSectors : UInt64} {g : Geometry} {target : Nat}

theorem footer_counts (useFooter metadataSize : UInt32) :
    (⟨0, useFooter, metadataSize⟩ : JvckMetadataOptions).useHeader.toNat +
      (⟨0, useFooter, metadataSize⟩ : JvckMetadataOptions).useFooter.toNat < 2 ^ 32 := by
  have := useFooter.toNat_lt
  simpa using this

/-- What lies outside the data region of a layout without headers lies behind it. -/
theorem dataCount_le_of_not_inData {L : Layout} (h : L.Of sectorSize volumeSectors ⟨0, useFooter, metadataSize⟩)
    {lba : Nat} (hl : ¬ L.InData lba) : L.dataCount ≤ lba := by
  have hstart : L.dataStart = 0 := by
    rw [Layout.dataStart, h.headers]
    exact Nat.zero_mul _
  rw [Layout.InData, hstart] at hl
  omega

theorem toNat_geometry_dataSectors_le (L : Layout) (sectorSize : UInt32) :
    (L.geometry sectorSize).dataSectors.toNat ≤ L.dataCount := by
  rw [Layout.geometry, UInt64.toNat_ofNat']
  exact Nat.mod_le _ _

theorem target_le_metadataSectorLbas (hg : computeGeometry sectorSize volumeSectors ⟨0, useFooter, metadataSize⟩ = .ok g)
    (ht : target ≤ g.dataSectors.toNat) {lba : UInt64}
    (hmem : lba ∈ metadataSectorLbas volumeSectors (replicaSectors metadataSize sectorSize) 0 useFooter) :
    target ≤ lba.toNat := by
  obtain ⟨L, hL, rfl⟩ := (computeGeometry_ok_iff (footer_counts useFooter metadataSize)).mp hg
  rw [hL.metadataSectorLbas_eq] at hmem
  obtain ⟨i, hi, rfl⟩ := List.mem_map.mp hmem
  have hi := List.mem_range.mp hi
  rw [hL.toNat_metaLba hi]
  exact (ht.trans (toNat_geometry_dataSectors_le L sectorSize)).trans (dataCount_le_of_not_inData hL (L.metaLba_not_data hi))

theorem target_le_vendorSector (hg : computeGeometry sectorSize volumeSectors ⟨0, useFooter, metadataSize⟩ = .ok g)
    (ht : target ≤ g.dataSectors.toNat) {i r : Nat} {base : UInt64}
    (hbase : vendorDataBaseLbaAt volumeSectors (replicaSectors metadataSize sectorSize) 0 useFooter i = some base)
    (hr : r < (replicaSectors metadataSize sectorSize).toNat - 1) : target ≤ (base + UInt64.ofNat r).toNat := by
  obtain ⟨L, hL, rfl⟩ := (computeGeometry_ok_iff (footer_counts useFooter metadataSize)).mp hg
  rw [hL.vendorDataBaseLbaAt_eq] at hbase
  split at hbase
  · rename_i hi
    cases hbase
    rw [hL.toNat_rs] at hr
    have hregion := L.vendor_mem_region (i := i) hr
    have hlt : L.vendorBase i + r < L.total := L.region_lt_total hi hregion.2.1
    have htotal := hL.total_lt
    have hsum : (UInt64.ofNat (L.vendorBase i) + UInt64.ofNat r).toNat = L.vendorBase i + r := by
      rw [UInt64.toNat_add, UInt64.toNat_ofNat', UInt64.toNat_ofNat']
      omega
    rw [hsum]
    exact (ht.trans (toNat_geometry_dataSectors_le L sectorSize)).trans
      (dataCount_le_of_not_inData hL (L.vendor_not_data hi hr))
  · cases hbase

end

/-! ## Requests of a run -/

/-- The requests of a run that has asked for `target` sectors and relocates from `threshold` on. -/
structure Asks (target threshold : Int64) (t : Session σ φ) : Prop where
  prepared : shrinkPrepare target ∈ t.shrinks
  shrinks : ∀ q ∈ t.shrinks, q = shrinkPrepare target ∨ q = shrinkCommit ∨ q = shrinkAbort
  thresholds : ∀ n ∈ t.thresholds, n = threshold

theorem Asks.shrink {target threshold : Int64} {t : Session σ φ} (h : Asks target threshold t) (D : Driver σ φ)
    {q : ShrinkVolumeInformation} (hq : q = shrinkCommit ∨ q = shrinkAbort) : Asks target threshold (t.shrink D q).2 := by
  refine ⟨List.mem_cons_of_mem _ h.prepared, ?_, h.thresholds⟩
  intro q' hq'
  rcases List.mem_cons.mp hq' with rfl | hmem
  · exact Or.inr hq
  · exact h.shrinks q' hmem

theorem commitLoop_asks (D : Driver σ φ) (reserved : UInt64) (ntfsData : NtfsVolumeData) {target : Int64} (fuel : Nat)
    {t t' : Session σ φ} {out : Except ShrinkError Unit} (h : Asks target (thresholdLCN reserved ntfsData) t)
    (hrun : commitLoop D reserved ntfsData fuel t = some (out, t')) :
    Asks target (thresholdLCN reserved ntfsData) t' := by
  induction fuel generalizing t with
  | zero => cases hrun
  | succ fuel ih =>
    rw [commitLoop] at hrun
    have hcommit := h.shrink D (Or.inl rfl)
    generalize hreply : t.shrink D shrinkCommit = reply at hrun hcommit
    obtain ⟨r, t₁⟩ := reply
    cases r with
    | done =>
      cases hrun
      exact hcommit
    | failed =>
      cases hrun
      exact hcommit.shrink D (Or.inr rfl)
    | accessDenied =>
      dsimp only at hrun hcommit
      split at hrun
      · cases hrun
        exact hcommit
      · -- a relocation, with one more threshold
        split at hrun
        · cases hrun
        · rename_i outcome w _
          have hmoved : Asks target (thresholdLCN reserved ntfsData)
              { t₁ with world := w, thresholds := thresholdLCN reserved ntfsData :: t₁.thresholds } := by
            refine ⟨hcommit.prepared, hcommit.shrinks, ?_⟩
            intro n hn
            rcases List.mem_cons.mp hn with rfl | hmem
            · rfl
            · exact hcommit.thresholds n hmem
          match outcome with
          | none =>
            cases hrun
            exact hmoved
          | some true => exact ih hmoved hrun
          | some false =>
            cases hrun
            exact hmoved.shrink D (Or.inr rfl)

/-- A run on a volume that opens and reports its sizes asks for the whole sectors in front of the tail, if
there are any, and for nothing else. -/
theorem shrinkVolumeTail_asks (D : Driver σ φ) {reserved : UInt64} {fuel : Nat} {v : σ} {length : Int64}
    {bytesPerSector : UInt32} {ntfsData : NtfsVolumeData} {out : Except ShrinkError Unit} {t : Session σ φ}
    (hopen : D.opens v = true) (hlength : D.lengthInfo v = some length)
    (hsector : D.bytesPerSector v = some bytesPerSector) (hpos : 0 < bytesPerSector.toNat)
    (hntfs : D.ntfsVolumeData v = some ntfsData) (hreserved : 0 < reserved.toNat)
    (hlt : (reserved.toNat : Int) < length.toInt)
    (hrun : shrinkVolumeTail D reserved fuel v = some (out, t)) :
    (targetSectors length bytesPerSector reserved).toInt = 0 ∧ t.shrinks = [] ∧ t.thresholds = [] ∨
      Asks (targetSectors length bytesPerSector reserved) (thresholdLCN reserved ntfsData) t := by
  have hne : reserved ≠ 0 := by
    rintro rfl
    exact absurd hreserved (by decide)
  have hsne : bytesPerSector ≠ 0 := by
    rintro rfl
    exact absurd hpos (by decide)
  have hread : readVolumeLengthAndSectorSizeFromHandle D v = .ok (length, bytesPerSector) := by
    simp only [readVolumeLengthAndSectorSizeFromHandle, hlength, hsector, hsne, if_false]
  have hmax := length.toInt_lt
  have hr : reserved.toInt64.toInt = reserved.toNat := toInt_toInt64 (by omega)
  have hbytes : ¬ length - reserved.toInt64 ≤ 0 := by
    have hzero : (0 : Int64).toInt = 0 := rfl
    rw [Int64.le_iff_toInt_le, toInt_sub_of_nonneg (by omega) (by omega), hr, hzero]
    omega
  have htarget : 0 ≤ (targetSectors length bytesPerSector reserved).toInt := by
    rw [toInt_targetSectors hlt]
    exact Int.ediv_nonneg (by omega) (by omega)
  simp only [shrinkVolumeTail, hne, hopen, hread, hntfs, hbytes, if_false, Bool.not_true, Bool.false_eq_true] at hrun
  split at hrun
  · rename_i hzero
    have h₀ : (0 : Int64).toInt = 0 := rfl
    rw [Int64.le_iff_toInt_le, h₀] at hzero
    cases hrun
    exact Or.inl ⟨by omega, rfl, rfl⟩
  · right
    have hfirst : Asks (targetSectors length bytesPerSector reserved) (thresholdLCN reserved ntfsData)
        (Session.shrink D ⟨⟨v, []⟩, [], []⟩ (shrinkPrepare (targetSectors length bytesPerSector reserved))).2 :=
      ⟨List.mem_singleton_self _, fun q hq => Or.inl (List.mem_singleton.mp hq), by simp [Session.shrink]⟩
    generalize Session.shrink D ⟨⟨v, []⟩, [], []⟩ (shrinkPrepare (targetSectors length bytesPerSector reserved)) =
      reply at hrun hfirst
    obtain ⟨r, t₁⟩ := reply
    cases r with
    | done => exact commitLoop_asks D reserved ntfsData fuel hfirst hrun
    | accessDenied =>
      cases hrun
      exact hfirst
    | failed =>
      cases hrun
      exact hfirst

/-! ## Moves of a run -/

/-- Every cluster that the commit loop asks to move is one of the tail, and goes in front of it. -/
theorem commitLoop_moves {D : Driver σ φ} {V : Volume σ φ} (hb : AnswersBitmap D.toKernel V)
    (hr : ReachesRequested D.toKernel V) (hd : DescribesExtents D.toKernel V) (reserved : UInt64)
    (ntfsData : NtfsVolumeData) (fuel : Nat) {t t' : Session σ φ} {out : Except ShrinkError Unit}
    (hrun : commitLoop D reserved ntfsData fuel t = some (out, t')) :
    ∃ new, t'.world.requests = new ++ t.world.requests ∧
      ∀ q ∈ new, TailMove D.toKernel V (thresholdLCN reserved ntfsData).toInt t'.world q := by
  induction fuel generalizing t with
  | zero => cases hrun
  | succ fuel ih =>
    rw [commitLoop] at hrun
    have hcommit : (t.shrink D shrinkCommit).2.world.requests = t.world.requests := rfl
    generalize t.shrink D shrinkCommit = reply at hrun hcommit
    obtain ⟨r, t₁⟩ := reply
    rw [← hcommit]
    cases r with
    | done =>
      cases hrun
      exact ⟨[], rfl, by simp⟩
    | failed =>
      cases hrun
      exact ⟨[], rfl, by simp⟩
    | accessDenied =>
      dsimp only at hrun
      split at hrun
      · cases hrun
        exact ⟨[], rfl, by simp⟩
      · split at hrun
        · cases hrun
        · rename_i outcome w hmove
          have hmoves := moveTailClustersBeforeThreshold_requests hb hr hd _ fuel hmove
          match outcome with
          | none =>
            cases hrun
            exact hmoves
          | some true =>
            have hrest := ih hrun
            obtain ⟨new, hnew, htail⟩ := hmoves
            exact requests_trans ⟨new, hnew, fun q hq => (htail q hq).mono (requests_subset hrest)⟩ hrest
          | some false =>
            cases hrun
            obtain ⟨new, hnew, htail⟩ := hmoves
            exact ⟨new, hnew, fun q hq => (htail q hq).mono (List.Subset.refl _)⟩

/-! ## The shrunk file system and the footer -/

/-- What the shrink for `useFooter` replicas of `metadataSize` bytes asks of a volume of `length` bytes, and
what the layout and the relocation make of it. -/
structure FreesTail (length : Int64) (sectorSize useFooter metadataSize : UInt32) (target : Nat) : Prop where
  requests : ∀ (σ φ : Type) (D : Driver σ φ) (v : σ) (ntfsData : NtfsVolumeData) (fuel : Nat)
    (out : Except ShrinkError Unit) (t : Session σ φ), D.opens v = true → D.lengthInfo v = some length →
    D.bytesPerSector v = some sectorSize → D.ntfsVolumeData v = some ntfsData →
    shrinkVolumeTail D (reservedTail useFooter metadataSize) fuel v = some (out, t) →
      (∀ q ∈ t.shrinks, (∃ n : Int64, n.toInt = target ∧ q = shrinkPrepare n) ∨ q = shrinkCommit ∨ q = shrinkAbort) ∧
      (0 < target → ∃ n : Int64, n.toInt = target ∧ shrinkPrepare n ∈ t.shrinks) ∧
      ∀ n ∈ t.thresholds, n = thresholdLCN (reservedTail useFooter metadataSize) ntfsData
  layout : ∀ g, computeGeometry sectorSize (UInt64.ofNat (length.toInt.toNat / sectorSize.toNat))
      ⟨0, useFooter, metadataSize⟩ = .ok g →
    target ≤ g.dataSectors.toNat ∧
      (∀ lba ∈ metadataSectorLbas (UInt64.ofNat (length.toInt.toNat / sectorSize.toNat))
        (replicaSectors metadataSize sectorSize) 0 useFooter, target ≤ lba.toNat) ∧
      (∀ i base r, vendorDataBaseLbaAt (UInt64.ofNat (length.toInt.toNat / sectorSize.toNat))
        (replicaSectors metadataSize sectorSize) 0 useFooter i = some base →
          r < (replicaSectors metadataSize sectorSize).toNat - 1 → target ≤ (base + UInt64.ofNat r).toNat) ∧
      ∀ (σ : Type) (a : AttachedVolume σ), a.sectorSize = sectorSize → a.dataSectors = g.dataSectors →
        target * sectorSize.toNat ≤ (FilterIo.reportedSize a).toNat
  relocation : ∀ (ntfsData : NtfsVolumeData) (clusters : Nat), ntfsData.totalClusters.toInt = clusters →
    0 < ntfsData.bytesPerCluster.toNat → (clusters * ntfsData.bytesPerCluster.toNat : Nat) ≤ length.toInt →
      (thresholdLCN (reservedTail useFooter metadataSize) ntfsData).toInt =
        clusters - ((useFooter.toNat * metadataSize.toNat + ntfsData.bytesPerCluster.toNat - 1) /
          ntfsData.bytesPerCluster.toNat : Nat) ∧
      (thresholdLCN (reservedTail useFooter metadataSize) ntfsData).toInt ≤
        ((length.toInt.toNat - useFooter.toNat * metadataSize.toNat) / ntfsData.bytesPerCluster.toNat : Nat) ∧
      ∀ c : Nat, length.toInt.toNat - useFooter.toNat * metadataSize.toNat <
          (c + 1) * ntfsData.bytesPerCluster.toNat ∨
        sectorSize.toNat ∣ ntfsData.bytesPerCluster.toNat ∧
          target * sectorSize.toNat < (c + 1) * ntfsData.bytesPerCluster.toNat →
        (thresholdLCN (reservedTail useFooter metadataSize) ntfsData).toInt ≤ c

section

variable {length : Int64} {sectorSize useFooter metadataSize : UInt32}

/-- The data region covers the requested sectors, and so does the size that the filter reports. -/
theorem layout_covers_target
    (hlt : ((useFooter.toNat * metadataSize.toNat : Nat) : Int) < length.toInt) {g : Geometry}
    (hg : computeGeometry sectorSize (UInt64.ofNat (length.toInt.toNat / sectorSize.toNat))
      ⟨0, useFooter, metadataSize⟩ = .ok g) :
    (length.toInt.toNat - useFooter.toNat * metadataSize.toNat) / sectorSize.toNat ≤ g.dataSectors.toNat := by
  have hmax := length.toInt_lt
  have hsectors : length.toInt.toNat / sectorSize.toNat ≤ length.toInt.toNat := Nat.div_le_self _ _
  have htotal : (UInt64.ofNat (length.toInt.toNat / sectorSize.toNat)).toNat = length.toInt.toNat / sectorSize.toNat := by
    rw [UInt64.toNat_ofNat']
    exact Nat.mod_eq_of_lt (by omega)
  obtain ⟨_, hdata, _⟩ := toNat_geometry hg
  have hcounts := Nat.mod_eq_of_lt (footer_counts useFooter metadataSize)
  rw [hcounts, htotal] at hdata
  dsimp only at hdata
  have hzero : (0 : UInt32).toNat = 0 := rfl
  rw [hzero, Nat.zero_add] at hdata
  have hfit := target_add_replicas_le length.toInt.toNat useFooter.toNat metadataSize.toNat sectorSize.toNat (by omega)
  omega

theorem target_le_reportedSize {target : Nat} {σ : Type} {a : AttachedVolume σ} (hlen : target * sectorSize.toNat < 2 ^ 64)
    (hs : a.sectorSize = sectorSize) (ht : target ≤ a.dataSectors.toNat) :
    target * sectorSize.toNat ≤ (FilterIo.reportedSize a).toNat := by
  rw [FilterIo.toNat_reportedSize, hs]
  have := Nat.mul_le_mul_right sectorSize.toNat ht
  omega

/-- A cluster of whole sectors that reaches past the whole sectors in front of the tail reaches past the
whole clusters in front of it. -/
theorem div_le_of_target_lt {n c bytes unit : Nat} (hdvd : unit ∣ bytes) (h : n / unit * unit < (c + 1) * bytes) :
    n / bytes ≤ c := by
  by_contra hlt
  obtain ⟨k, rfl⟩ := hdvd
  have hfit : (c + 1) * (unit * k) ≤ n :=
    (Nat.mul_le_mul_right _ (Nat.succ_le_of_lt (Nat.lt_of_not_le hlt))).trans (Nat.div_mul_le_self n _)
  have hunit : (c + 1) * (unit * k) = (c + 1) * k * unit := by
    rw [Nat.mul_comm unit k, Nat.mul_assoc]
  rw [hunit] at h hfit
  rcases Nat.eq_zero_or_pos unit with rfl | hpos
  · omega
  · have := (Nat.le_div_iff_mul_le hpos).mpr hfit
    have := Nat.mul_le_mul_right unit this
    omega

theorem shrink_frees_tail (length : Int64) (sectorSize useFooter metadataSize : UInt32)
    (hs : 512 ≤ sectorSize.toNat) (hf : 1 ≤ useFooter.toNat) (hm : 128 * 1024 ≤ metadataSize.toNat)
    (hlt : ((useFooter.toNat * metadataSize.toNat : Nat) : Int) < length.toInt) :
    FreesTail length sectorSize useFooter metadataSize
      ((length.toInt.toNat - useFooter.toNat * metadataSize.toNat) / sectorSize.toNat) := by
  have hreserved := toNat_reservedTail useFooter metadataSize
  have hmax := length.toInt_lt
  have hpos : 0 < useFooter.toNat * metadataSize.toNat := Nat.mul_pos hf (by omega)
  constructor
  · intro σ φ D v ntfsData fuel out t hopen hlength hsector hntfs hrun
    have htarget : (targetSectors length sectorSize (reservedTail useFooter metadataSize)).toInt =
        ((length.toInt.toNat - useFooter.toNat * metadataSize.toNat) / sectorSize.toNat : Nat) := by
      have hfront : length.toInt - ((useFooter.toNat * metadataSize.toNat : Nat) : Int) =
          ((length.toInt.toNat - useFooter.toNat * metadataSize.toNat : Nat) : Int) := by omega
      rw [toInt_targetSectors (by rw [hreserved]; exact hlt), hreserved, hfront]
      exact (Int.natCast_ediv _ _).symm
    rcases shrinkVolumeTail_asks D hopen hlength hsector (by omega) hntfs (by omega) (by rw [hreserved]; exact hlt)
      hrun with ⟨hzero, hnone, hthr⟩ | h
    · rw [htarget] at hzero
      rw [hnone, hthr]
      refine ⟨by simp, ?_, by simp⟩
      intro hlt'
      omega
    · refine ⟨?_, fun _ => ⟨_, htarget, h.prepared⟩, h.thresholds⟩
      intro q hq
      rcases h.shrinks q hq with rfl | hrest
      · exact Or.inl ⟨_, htarget, rfl⟩
      · exact Or.inr hrest
  · intro g hg
    have ht := layout_covers_target hlt hg
    refine ⟨ht, fun lba hmem => target_le_metadataSectorLbas hg ht hmem,
      fun i base r hbase hr => target_le_vendorSector hg ht hbase hr, ?_⟩
    intro σ a hsector hdata
    refine target_le_reportedSize ?_ hsector (by rw [hdata]; exact ht)
    have := Nat.div_mul_le_self (length.toInt.toNat - useFooter.toNat * metadataSize.toNat) sectorSize.toNat
    omega
  · intro ntfsData clusters hclusters hbytes hfit
    have hthr := toInt_thresholdLCN (reservedTail useFooter metadataSize) hclusters hbytes (by omega)
    rw [hreserved] at hthr
    have hfits : clusters * ntfsData.bytesPerCluster.toNat ≤ length.toInt.toNat := by omega
    have htail : useFooter.toNat * metadataSize.toNat ≤ length.toInt.toNat := by omega
    have hle := threshold_le hbytes hfits htail
    rw [hthr]
    refine ⟨rfl, hle, ?_⟩
    intro c hc
    have hwhole : (length.toInt.toNat - useFooter.toNat * metadataSize.toNat) / ntfsData.bytesPerCluster.toNat ≤ c := by
      rcases hc with hc | ⟨hdvd, hc⟩
      · exact div_le_of_lt_succ_mul hc
      · exact div_le_of_target_lt hdvd hc
    exact hle.trans (by exact_mod_cast hwhole)

end

/-- A volume of 64 MiB and 700 bytes, with sectors of 512 bytes and clusters of 4 KiB, that shrinks at once. -/
def sampleDriver : Driver Bool Unit :=
  { sampleKernel with
    opens := fun _ => true
    lengthInfo := fun _ => some 67109564
    bytesPerSector := fun _ => some 512
    ntfsVolumeData := fun _ => some ⟨16384, 4096⟩
    shrinkVolume := fun moved _ => (.done, moved)
    entries := fun _ => some [] }

/-- Two replicas of 128 KiB and half a sector: the file system keeps 130560 sectors, one less than the data
region of the layout has. -/
theorem two_footers_freed :
    FreesTail 67109564 512 2 131328 130560 ∧
      (shrinkVolumeTail sampleDriver (reservedTail 2 131328) 1 false).map (fun r => r.2.shrinks) =
        some [shrinkCommit, shrinkPrepare 130560] ∧
      computeGeometry 512 131073 ⟨0, 2, 131328⟩ = .ok ⟨0, 130561, 512⟩ ∧
      thresholdLCN (reservedTail 2 131328) ⟨16384, 4096⟩ = 16319 :=
  ⟨shrink_frees_tail 67109564 512 2 131328 (by decide) (by decide) (by decide) (by decide), by decide, by decide,
    by decide⟩

end VolumeShrink
