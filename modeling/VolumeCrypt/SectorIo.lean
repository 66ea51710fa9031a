import VolumeCrypt.ByteMemory
import VolumeCrypt.VckTypes

/-!
# Raw sector I/O

The device below the filter, as the `SectorIo` trait of `lib/common/src/store.rs`
shows it, together with the process-wide randomness source of `rng.rs`. Every
handle that the driver opens on a volume reads and writes this one device. A
request fails when it leaves the device or touches a sector that the environment
has marked bad; a failed write changes nothing.
-/
namespace SectorIo

open ByteString ByteMemory VckTypes

structure Device where
  sectorSize : UInt32
  totalSectors : UInt64
  bytes : Memory
  readFault : Nat → Bool
  writeFault : Nat → Bool
  /-- What the randomness source answers to its `n`-th call. -/
  random : Nat → VckResult (Fixed 16)
  draws : Nat
  /-- `total_sectors` is a 64-bit byte count divided by the sector size. -/
  addressable : totalSectors.toNat * sectorSize.toNat < 2 ^ 64

/-- The sector size as a number. -/
def Device.ss (d : Device) : Nat := d.sectorSize.toNat

/-- The sector count as a number. -/
def Device.sectors (d : Device) : Nat := d.totalSectors.toNat

/-- The sectors that `len` bytes starting at a sector boundary touch. -/
def Device.touched (d : Device) (lba len : Nat) : List Nat :=
  (List.range ((len + d.ss - 1) / d.ss)).map (lba + ·)

def readSectors (d : Device) (lba : UInt64) (len : Nat) : VckResult Bytes :=
  if lba.toNat * d.ss + len ≤ d.sectors * d.ss ∧ (d.touched lba.toNat len).all (!d.readFault ·) then
    .ok (load d.bytes (lba.toNat * d.ss) len)
  else .error (.io "read_sectors failed")

def writeSectors (d : Device) (lba : UInt64) (buf : Bytes) : VckResult Unit × Device :=
  if lba.toNat * d.ss + buf.length ≤ d.sectors * d.ss ∧ (d.touched lba.toNat buf.length).all (!d.writeFault ·) then
    (.ok (), { d with bytes := save d.bytes (lba.toNat * d.ss) buf })
  else (.error (.io "write_sectors failed"), d)

/-- `rng::fill_random` on a 16-byte buffer. -/
def fillRandom (d : Device) : VckResult (Fixed 16) × Device :=
  (d.random d.draws, { d with draws := d.draws + 1 })

/-- The content of one sector. -/
def Device.sector (d : Device) (lba : Nat) : Bytes := load d.bytes (lba * d.ss) d.ss

@[simp] theorem length_sector (d : Device) (lba : Nat) : (d.sector lba).length = d.ss := by
  simp [Device.sector]

/-! ## Frames -/

/-- `d'` is `d` after changes to sectors of `S` only. -/
structure Frame (S : Nat → Prop) (d d' : Device) : Prop where
  sectorSize : d'.sectorSize = d.sectorSize
  totalSectors : d'.totalSectors = d.totalSectors
  readFault : d'.readFault = d.readFault
  writeFault : d'.writeFault = d.writeFault
  random : d'.random = d.random
  bytes : ∀ a, ¬ S (a / d.ss) → d'.bytes a = d.bytes a

namespace Frame

variable {S T : Nat → Prop} {d d' d'' : Device}

theorem refl (S : Nat → Prop) (d : Device) : Frame S d d :=
  ⟨rfl, rfl, rfl, rfl, rfl, fun _ _ => rfl⟩

theorem ss (h : Frame S d d') : d'.ss = d.ss := by
  rw [Device.ss, Device.ss, h.sectorSize]

theorem sectors (h : Frame S d d') : d'.sectors = d.sectors := by
  rw [Device.sectors, Device.sectors, h.totalSectors]

theorem trans (h : Frame S d d') (h' : Frame S d' d'') : Frame S d d'' := by
  refine ⟨h'.sectorSize.trans h.sectorSize, h'.totalSectors.trans h.totalSectors, h'.readFault.trans h.readFault,
    h'.writeFault.trans h.writeFault, h'.random.trans h.random, ?_⟩
  intro a ha
  have hd := h'.bytes a (by rwa [h.ss])
  exact hd.trans (h.bytes a ha)

theorem mono (h : Frame S d d') (hs : ∀ i, S i → T i) : Frame T d d' :=
  ⟨h.sectorSize, h.totalSectors, h.readFault, h.writeFault, h.random, fun a ha => h.bytes a fun hn => ha (hs _ hn)⟩

theorem load_eq (h : Frame S d d') {lba n : Nat} (hs : ∀ i, i < n → ¬ S (lba + i)) :
    load d'.bytes (lba * d.ss) (n * d.ss) = load d.bytes (lba * d.ss) (n * d.ss) := by
  apply load_congr
  intro i hi
  have hp : 0 < d.ss := by
    rcases Nat.eq_zero_or_pos d.ss with h₀ | h₀
    · rw [h₀] at hi; simp at hi
    · exact h₀
  apply h.bytes
  have hq : (lba * d.ss + i) / d.ss = lba + i / d.ss := by
    rw [Nat.add_comm, Nat.add_mul_div_right _ _ hp, Nat.add_comm]
  rw [hq]
  exact hs _ (Nat.div_lt_of_lt_mul (by rwa [Nat.mul_comm]))

theorem sector_eq (h : Frame S d d') {lba : Nat} (hs : ¬ S lba) : d'.sector lba = d.sector lba := by
  have hone : ∀ i, i < 1 → ¬ S (lba + i) := by
    intro i hi
    obtain rfl : i = 0 := by omega
    exact hs
  have hl := h.load_eq hone
  rw [Nat.one_mul] at hl
  rw [Device.sector, Device.sector, h.ss]
  exact hl

end Frame

/-- No call on the device ever fails inside its bounds. -/
structure Healthy (d : Device) : Prop where
  readFault : ∀ lba, d.readFault lba = false
  writeFault : ∀ lba, d.writeFault lba = false
  random : ∀ n, ∃ salt, d.random n = .ok salt

theorem Healthy.frame {S : Nat → Prop} {d d' : Device} (h : Healthy d) (hf : Frame S d d') : Healthy d' := by
  constructor
  · rw [hf.readFault]
    exact h.readFault
  · rw [hf.writeFault]
    exact h.writeFault
  · rw [hf.random]
    exact h.random

/-- A zeroed device on which nothing fails. -/
def blank (sectorSize : UInt32) (totalSectors : UInt64) (h : totalSectors.toNat * sectorSize.toNat < 2 ^ 64) :
    Device where
  sectorSize := sectorSize
  totalSectors := totalSectors
  bytes := fun _ => 0
  readFault := fun _ => false
  writeFault := fun _ => false
  random := fun _ => .ok (List.Vector.replicate 16 0)
  draws := 0
  addressable := h

theorem blank_healthy {sectorSize : UInt32} {totalSectors : UInt64}
    (h : totalSectors.toNat * sectorSize.toNat < 2 ^ 64) : Healthy (blank sectorSize totalSectors h) :=
  ⟨fun _ => rfl, fun _ => rfl, fun _ => ⟨_, rfl⟩⟩

/-! ## Requests for whole sectors -/

theorem touched_mul (d : Device) (hp : 0 < d.ss) (lba n : Nat) :
    d.touched lba (n * d.ss) = (List.range n).map (lba + ·) := by
  have hq : (n * d.ss + d.ss - 1) / d.ss = n := by
    rw [Nat.add_sub_assoc hp, Nat.add_comm, Nat.add_mul_div_right _ _ hp, Nat.div_eq_of_lt (by omega), Nat.zero_add]
  rw [Device.touched, hq]

/-- Sectors `[lba, lba + n)` exist and none of them is marked in `fault`. -/
def Reachable (d : Device) (fault : Nat → Bool) (lba n : Nat) : Prop :=
  lba + n ≤ d.sectors ∧ ∀ i, i < n → fault (lba + i) = false

theorem reachable_iff (d : Device) (hp : 0 < d.ss) (fault : Nat → Bool) (lba n : Nat) :
    lba * d.ss + n * d.ss ≤ d.sectors * d.ss ∧ (d.touched lba (n * d.ss)).all (!fault ·) ↔
      Reachable d fault lba n := by
  rw [touched_mul d hp, ← Nat.add_mul, Nat.mul_le_mul_right_iff hp]
  simp [Reachable]

theorem readSectors_ok_iff {d : Device} (hp : 0 < d.ss) {lba : UInt64} {n : Nat} {b : Bytes} :
    readSectors d lba (n * d.ss) = .ok b ↔
      Reachable d d.readFault lba.toNat n ∧ b = load d.bytes (lba.toNat * d.ss) (n * d.ss) := by
  rw [← reachable_iff d hp, readSectors]
  split
  · rename_i h
    simp only [h, true_and, Except.ok.injEq, and_self]
    exact eq_comm
  · rename_i h
    simp only [h, false_and, reduceCtorEq]

theorem writeSectors_of_reachable {d : Device} (hp : 0 < d.ss) {lba : UInt64} {n : Nat} {buf : Bytes}
    (hl : buf.length = n * d.ss) (h : Reachable d d.writeFault lba.toNat n) :
    writeSectors d lba buf = (.ok (), { d with bytes := save d.bytes (lba.toNat * d.ss) buf }) := by
  rw [← reachable_iff d hp] at h
  rw [writeSectors, hl, if_pos h]

theorem writeSectors_of_not_reachable {d : Device} (hp : 0 < d.ss) {lba : UInt64} {n : Nat} {buf : Bytes}
    (hl : buf.length = n * d.ss) (h : ¬ Reachable d d.writeFault lba.toNat n) :
    writeSectors d lba buf = (.error (.io "write_sectors failed"), d) := by
  rw [← reachable_iff d hp] at h
  rw [writeSectors, hl, if_neg h]

theorem writeSectors_cases (d : Device) (lba : UInt64) (buf : Bytes) :
    writeSectors d lba buf = (.ok (), { d with bytes := save d.bytes (lba.toNat * d.ss) buf }) ∨
      writeSectors d lba buf = (.error (.io "write_sectors failed"), d) := by
  rw [writeSectors]
  split
  · exact .inl rfl
  · exact .inr rfl

/-- A buffer that was written fits the 64-bit byte range of the device. -/
theorem length_lt_of_write {d d' : Device} {lba : UInt64} {buf : Bytes}
    (hw : writeSectors d lba buf = (.ok (), d')) : buf.length < 2 ^ 64 := by
  have ha : d.sectors * d.ss < 2 ^ 64 := d.addressable
  unfold writeSectors at hw
  split at hw
  · rename_i hr
    have := hr.1
    omega
  · cases (Prod.mk.inj hw).1

/-- A write touches the sectors of its range only. -/
theorem writeSectors_frame (d : Device) (lba : UInt64) {n : Nat} {buf : Bytes} (hl : buf.length = n * d.ss) :
    Frame (fun i => lba.toNat ≤ i ∧ i < lba.toNat + n) d (writeSectors d lba buf).2 := by
  rcases writeSectors_cases d lba buf with hw | hw
  · rw [hw]
    refine ⟨rfl, rfl, rfl, rfl, rfl, ?_⟩
    intro a ha
    apply save_apply_of_not_mem
    rw [hl, ← Nat.add_mul]
    rcases Nat.eq_zero_or_pos d.ss with h₀ | hp
    · rw [h₀]
      simp
    · by_cases h₁ : a / d.ss < lba.toNat
      · left
        exact (Nat.div_lt_iff_lt_mul hp).mp h₁
      · right
        exact (Nat.le_div_iff_mul_le hp).mp (by omega)
  · rw [hw]
    exact .refl _ _

/-- The sectors `[lba, lba + n)` one after the other. -/
def Device.area (d : Device) (lba n : Nat) : Bytes := (List.range n).flatMap fun i => d.sector (lba + i)

theorem area_succ (d : Device) (lba n : Nat) : d.area lba (n + 1) = d.area lba n ++ d.sector (lba + n) := by
  simp [Device.area, List.range_succ]

theorem load_eq_area (d : Device) (lba n : Nat) : load d.bytes (lba * d.ss) (n * d.ss) = d.area lba n := by
  induction n with
  | zero => simp [load, Device.area]
  | succ n ih => rw [Nat.succ_mul, load_add, ih, ← Nat.add_mul, area_succ, Device.sector]

theorem length_area (d : Device) (lba n : Nat) : (d.area lba n).length = n * d.ss := by
  rw [← load_eq_area, length_load]

theorem slice_area (d : Device) {lba n k : Nat} (hk : k < n) :
    slice (d.area lba n) (k * d.ss) d.ss = d.sector (lba + k) := by
  have hle : k * d.ss + d.ss ≤ n * d.ss := by
    rw [← Nat.succ_mul]
    exact Nat.mul_le_mul_right _ hk
  rw [← load_eq_area, slice_load _ hle, Device.sector, Nat.add_mul]

theorem readSectors_of_reachable {d : Device} (hp : 0 < d.ss) {lba : UInt64} {n : Nat}
    (h : Reachable d d.readFault lba.toNat n) : readSectors d lba (n * d.ss) = .ok (d.area lba.toNat n) :=
  (readSectors_ok_iff hp).mpr ⟨h, (load_eq_area d lba.toNat n).symm⟩

theorem readSectors_of_not_reachable {d : Device} (hp : 0 < d.ss) {lba : UInt64} {n : Nat}
    (h : ¬ Reachable d d.readFault lba.toNat n) :
    readSectors d lba (n * d.ss) = .error (.io "read_sectors failed") := by
  rw [← reachable_iff d hp] at h
  rw [readSectors, if_neg h]

/-- Sector by sector, a successful write puts the buffer in place and nothing else. -/
theorem sector_writeSectors {d d' : Device} {lba : UInt64} {n : Nat} {buf : Bytes} (hl : buf.length = n * d.ss)
    (hw : writeSectors d lba buf = (.ok (), d')) (l : Nat) :
    d'.sector l =
      if lba.toNat ≤ l ∧ l < lba.toNat + n then slice buf ((l - lba.toNat) * d.ss) d.ss else d.sector l := by
  have hd : d' = { d with bytes := save d.bytes (lba.toNat * d.ss) buf } := by
    rcases writeSectors_cases d lba buf with h | h
    · exact (Prod.mk.inj (hw.symm.trans h)).2
    · rw [h] at hw
      cases (Prod.mk.inj hw).1
  subst hd
  split
  · rename_i h
    obtain ⟨k, rfl⟩ : ∃ k, l = lba.toNat + k := ⟨l - lba.toNat, by omega⟩
    have hk : k * d.ss + d.ss ≤ n * d.ss := by
      rw [← Nat.succ_mul]
      exact Nat.mul_le_mul_right _ (by omega)
    change load (save d.bytes (lba.toNat * d.ss) buf) ((lba.toNat + k) * d.ss) d.ss = _
    rw [Nat.add_mul, load_save_inside d.bytes (by omega), Nat.add_sub_cancel_left]
  · rename_i h
    have hf := writeSectors_frame d lba hl
    rw [hw] at hf
    exact hf.sector_eq h

theorem fillRandom_frame (d : Device) : Frame (fun _ => False) d (fillRandom d).2 :=
  ⟨rfl, rfl, rfl, rfl, rfl, fun _ _ => rfl⟩

end SectorIo
