import VolumeCrypt.OpenIndependence
import VolumeCrypt.OpenedStore

/-!
# Replicas that the selector rejects

Phase B hands each CRC-valid replica to a selector of the caller and adopts the first one
that it takes. The selector and the codec see a replica through `ReplicaCtx` only. The
offset is then recovered by a second scan that does not ask the selector, so a rejected
replica still counts for it unless another replica is at least as far.
-/
namespace SelectorInfluence

open ByteString ByteMemory VckTypes SectorIo JvckLayout JvckStore JvckReplicas JvckRuns OpenedStore
open JvckMetadata (Primitives JvckHeader JvckSecrets)

/-! ## What a selector can see -/

/-- What the methods of `ReplicaCtx` show of a replica. -/
structure ReplicaView where
  header : JvckHeader
  block : Fixed 512
  replicaIndex : Nat
  vendorDataSectorCount : UInt64
  readVendorData : UInt64 → Nat → VckResult Bytes

def view (ctx : ReplicaCtx) : ReplicaView where
  header := ctx.header
  block := ctx.block
  replicaIndex := ctx.replicaIndex
  vendorDataSectorCount := ctx.vendorSectorCount
  readVendorData := ctx.readVendorData

/-- An implementation of `MetadataCodec`, which sees replicas through their methods. -/
structure VisibleCodec where
  unsealPayload : ReplicaView → Bytes → VckResult Unsealed
  sealPayload : JvckHeader → JvckSecrets → UInt64 → VolumeState → Fixed 16 → Bytes → VckResult (Fixed 512)
  readOffset : ReplicaView → Bytes → VckResult UInt64

def VisibleCodec.codec (c : VisibleCodec) : MetadataCodec where
  unsealPayload ctx := c.unsealPayload (view ctx)
  sealPayload := c.sealPayload
  readOffset ctx := c.readOffset (view ctx)

/-- A `select` closure. -/
abbrev Selector := ReplicaView → VckResult (VisibleCodec × Unsealed)

def Selector.run (select : Selector) (ctx : ReplicaCtx) : VckResult (MetadataCodec × Unsealed) :=
  match select (view ctx) with
  | .error e => .error e
  | .ok (c, u) => .ok (c.codec, u)

/-! ## Rejected replicas -/

/-- The selector answered `Err` to replica `i`. -/
def Rejected (P : Primitives) (r : JvckMetadataReader) (d : Device) (select : Selector) (i : Nat) (lba : UInt64) :
    Prop :=
  ∃ block e, readBlock d r.geometry.sectorSize lba = .ok block ∧ JvckMetadata.verifyCrc P block.toList = .ok () ∧
    select (view (r.ctx r.header d i block)) = .error e

/-- `d'` is `d` with a CRC-invalid block in the Metadata sector `lba`. -/
structure Replaced (P : Primitives) (d d' : Device) (lba : UInt64) : Prop where
  frame : Frame (· = lba.toNat) d d'
  invalid : JvckMetadata.verifyCrc P (blockAt d' lba.toNat).toList ≠ .ok ()

/-- Without the block in `lba` the volume opens to the same keys, state and offset. -/
def Unchanged (P : Primitives) (vmk : Bytes) (select : Selector) (s : JvckMetadataStore) (d : Device) (lba : UInt64) :
    Prop :=
  ∀ d' r', Replaced P d d' lba → JvckMetadataReader.openReader P d' = .ok r' →
    ∃ s', r'.intoStore P d' vmk select.run = .ok s' ∧ s'.secrets = s.secrets ∧ s'.state = s.state ∧
      s'.offset = s.offset ∧ s'.loadOffset P d' = s.loadOffset P d

/-- Phase A finds the same header without the block in `lba`. -/
def HeaderElsewhere (P : Primitives) (r : JvckMetadataReader) (d : Device) (lba : UInt64) : Prop :=
  if lba.toNat = d.sectors - 1 then
    d.readFault 0 = false ∧ JvckMetadata.parse P (blockAt d 0).toList = .ok r.header
  else JvckMetadata.verifyCrc P (blockAt d (d.sectors - 1)).toList = .ok () ∨ lba.toNat ≠ 0

/-- Without the block in `lba` Phase A finds another header, in sector 0. -/
def OtherHeader (P : Primitives) (r : JvckMetadataReader) (d : Device) (lba : UInt64) : Prop :=
  lba.toNat = d.sectors - 1 ∧ d.readFault 0 = false ∧
    ∃ r', openBlock P d (blockAt d 0) = .ok r' ∧ r'.header ≠ r.header

/-- The offset that the adopted codec reads from replica `i` is reached by another replica. -/
def Covered (P : Primitives) (s : JvckMetadataStore) (d : Device) (i : Nat) (lba : UInt64) : Prop :=
  ∀ o, replicaOffset P s d i lba = some o →
    ∃ x ∈ s.lbas.zipIdx 0, x.2 ≠ i ∧ ∃ o', replicaOffset P s d x.2 x.1 = some o' ∧ o ≤ o'

/-! ## Replacing one block -/

section Replacing

variable {P : Primitives} {d d' : Device} {lba : UInt64} {L : Layout} {p : Placement} {r : JvckMetadataReader}

theorem readSectors_frame {S : Nat → Prop} (hp : 0 < d.ss) (hf : Frame S d d') {l : UInt64} {n : Nat}
    (hs : ∀ k, k < n → ¬ S (l.toNat + k)) : readSectors d' l (n * d.ss) = readSectors d l (n * d.ss) := by
  have h := reachable_iff d hp d.readFault l.toNat n
  have h' := reachable_iff d' (by rw [hf.ss]; exact hp) d'.readFault l.toNat n
  rw [hf.ss] at h'
  have hsame : Reachable d' d'.readFault l.toNat n ↔ Reachable d d.readFault l.toNat n := by
    rw [Reachable, Reachable, hf.sectors, hf.readFault]
  have hcond := h'.trans (hsame.trans h.symm)
  rw [readSectors, readSectors, hf.ss]
  by_cases hr : l.toNat * d.ss + n * d.ss ≤ d.sectors * d.ss ∧ (d.touched l.toNat (n * d.ss)).all (!d.readFault ·)
  · rw [if_pos (hcond.mpr hr), if_pos hr, hf.load_eq hs]
  · rw [if_neg (mt hcond.mp hr), if_neg hr]

/-- A read of 2^64 bytes or more never fits the device. -/
theorem readSectors_huge {l : UInt64} {len : Nat} (h : 2 ^ 64 ≤ len) :
    readSectors d l len = .error (.io "read_sectors failed") := by
  have ha : d.sectors * d.ss < 2 ^ 64 := d.addressable
  rw [readSectors, if_neg]
  rintro ⟨hle, _⟩
  omega

/-- The vendor sectors of a replica do not meet the Metadata sector that was replaced. -/
theorem readVendorData_replaced (hon : On p L d) {i j : Nat} (hf : Frame (· = L.metaLba i) d d') (hj : j < L.count)
    (header : JvckHeader) (block : Fixed 512) :
    (p.ctx header d' j block).readVendorData = (p.ctx header d j block).readVendorData := by
  funext rel len
  rw [ctx_readVendorData hon hj, ctx_readVendorData hon hj]
  cases hl : p.vendorDataLba j rel len with
  | error e => rfl
  | ok l =>
    change readSectors d' l len = readSectors d l len
    by_cases hlen : len < 2 ^ 64
    · obtain ⟨n, _, rfl, _, hle, rfl⟩ := (vendorDataLba_ok_iff hon hlen).mp hl
      apply readSectors_frame (Nat.lt_of_lt_of_le (by decide) hon.ss) hf
      intro k hk
      have hr : rel.toNat + k < L.replica - 1 := by omega
      rw [toNat_vendorSector hon hj (show rel.toNat < L.replica - 1 by omega), Nat.add_assoc]
      exact L.vendor_not_meta i hr
    · rw [readSectors_huge (Nat.le_of_not_lt hlen), readSectors_huge (Nat.le_of_not_lt hlen)]

/-- Another replica looks the same after the replacement. -/
theorem view_replaced (hon : On p L d) {i j : Nat} (hf : Frame (· = L.metaLba i) d d') (hj : j < L.count)
    (header : JvckHeader) (block : Fixed 512) :
    view (p.ctx header d' j block) = view (p.ctx header d j block) := by
  have hv := readVendorData_replaced hon hf hj header block
  rw [view, view, hv]
  rfl

theorem readBlock_replaced (hon : On p L d) {i j : Nat} (hf : Frame (· = L.metaLba i) d d') (hj : j < L.count)
    (hne : j ≠ i) :
    readBlock d' p.geometry.sectorSize (UInt64.ofNat (L.metaLba j)) =
      readBlock d p.geometry.sectorSize (UInt64.ofNat (L.metaLba j)) := by
  have hmeta : L.metaLba j ≠ L.metaLba i := fun h => hne (L.metaLba_injective h)
  rw [hon.readBlock hj, (hon.frame hf).readBlock hj, hf.readFault, blockAt_frame hf hmeta]

theorem replicaSelect_replaced (hon : On r.toPlacement L d) {i j : Nat} (hf : Frame (· = L.metaLba i) d d')
    (hj : j < L.count) (hne : j ≠ i) (select : Selector) :
    replicaSelect P r d' select.run j (UInt64.ofNat (L.metaLba j)) =
      replicaSelect P r d select.run j (UInt64.ofNat (L.metaLba j)) := by
  have hview (block : Fixed 512) : select.run (r.ctx r.header d' j block) = select.run (r.ctx r.header d j block) := by
    rw [Selector.run, Selector.run, view_replaced hon hf hj]
  simp only [replicaSelect, readBlock_replaced hon hf hj hne, hview]

theorem replicaOffset_replaced {s : JvckMetadataStore} {c : VisibleCodec} (hon : On s.toPlacement L d) {i j : Nat}
    (hf : Frame (· = L.metaLba i) d d') (hj : j < L.count) (hne : j ≠ i) (hc : s.codec = c.codec) :
    replicaOffset P s d' j (UInt64.ofNat (L.metaLba j)) = replicaOffset P s d j (UInt64.ofNat (L.metaLba j)) := by
  have hview (block : Fixed 512) : s.codec.readOffset (s.ctx s.header d' j block) =
      s.codec.readOffset (s.ctx s.header d j block) := by
    rw [hc]
    change c.readOffset (view (s.ctx s.header d' j block)) = c.readOffset (view (s.ctx s.header d j block))
    rw [view_replaced hon hf hj]
  simp only [replicaOffset, readBlock_replaced hon hf hj hne, hview]

/-- An invalid block is neither selected nor read for its offset. -/
theorem replaced_skipped {p : Placement} (hon : On p L d) {i : Nat} (hi : i < L.count)
    (hrep : Replaced P d d' (UInt64.ofNat (L.metaLba i))) {block : Fixed 512}
    (hread : readBlock d' p.geometry.sectorSize (UInt64.ofNat (L.metaLba i)) = .ok block) :
    ∃ e, JvckMetadata.verifyCrc P block.toList = .error e := by
  have hbad := hrep.invalid
  rw [hon.layout.toNat_metaLba hi] at hbad
  rw [(hon.frame hrep.frame).readBlock hi] at hread
  split at hread
  · cases hread
  · obtain rfl := Except.ok.inj hread
    cases hv : JvckMetadata.verifyCrc P (blockAt d' (L.metaLba i)).toList with
    | error e => exact ⟨e, rfl⟩
    | ok u => exact absurd hv hbad

theorem replicaSelect_invalid (hon : On r.toPlacement L d) {i : Nat} (hi : i < L.count)
    (hrep : Replaced P d d' (UInt64.ofNat (L.metaLba i)))
    (select : ReplicaCtx → VckResult (MetadataCodec × Unsealed)) :
    replicaSelect P r d' select i (UInt64.ofNat (L.metaLba i)) = none := by
  rw [replicaSelect]
  cases hread : readBlock d' r.geometry.sectorSize (UInt64.ofNat (L.metaLba i)) with
  | error e => rfl
  | ok block =>
    obtain ⟨e, he⟩ := replaced_skipped hon hi hrep hread
    simp only [he]

theorem replicaOffset_invalid {s : JvckMetadataStore} (hon : On s.toPlacement L d) {i : Nat} (hi : i < L.count)
    (hrep : Replaced P d d' (UInt64.ofNat (L.metaLba i))) :
    replicaOffset P s d' i (UInt64.ofNat (L.metaLba i)) = none := by
  rw [replicaOffset]
  cases hread : readBlock d' s.geometry.sectorSize (UInt64.ofNat (L.metaLba i)) with
  | error e => rfl
  | ok block =>
    obtain ⟨e, he⟩ := replaced_skipped hon hi hrep hread
    simp only [he]

theorem replicaSelect_rejected {select : Selector} {i : Nat} (h : Rejected P r d select i lba) :
    replicaSelect P r d select.run i lba = none := by
  obtain ⟨block, e, hread, hcrc, hsel⟩ := h
  simp only [replicaSelect, hread, hcrc, Selector.run, hsel]
  rfl

/-- Phase B adopts the same replica when the block of a rejected one is replaced. -/
theorem findSome_replaced (hon : On r.toPlacement L d) {select : Selector} {i : Nat} (hi : i < L.count)
    (hrep : Replaced P d d' (UInt64.ofNat (L.metaLba i)))
    (hrej : Rejected P r d select i (UInt64.ofNat (L.metaLba i))) :
    (r.lbas.zipIdx 0).findSome? (fun x => replicaSelect P r d' select.run x.2 x.1) =
      (r.lbas.zipIdx 0).findSome? fun x => replicaSelect P r d select.run x.2 x.1 := by
  have hf : Frame (· = L.metaLba i) d d' := by
    have hframe := hrep.frame
    rwa [hon.layout.toNat_metaLba hi] at hframe
  rw [zipIdx_lbas hon, List.findSome?_map, List.findSome?_map, ← List.head?_filterMap, ← List.head?_filterMap]
  congr 1
  apply List.filterMap_congr
  intro j hj
  simp only [Function.comp_apply]
  by_cases hne : j = i
  · subst hne
    rw [replicaSelect_invalid hon hi hrep, replicaSelect_rejected hrej]
  · exact replicaSelect_replaced hon hf (List.mem_range.mp hj) hne select

end Replacing

/-! ## The offset without one replica -/

section Offsets

theorem foldl_better_eq_some {l : List UInt64} {m : UInt64} : l.foldl better none = some m ↔ IsLargest m l := by
  cases l with
  | nil => simp [IsLargest]
  | cons x xs =>
    obtain ⟨m', hm', hmem, hall⟩ := foldl_better_none (List.cons_ne_nil x xs)
    rw [hm', Option.some_inj]
    constructor
    · rintro rfl
      exact ⟨hmem, hall⟩
    · intro h
      exact UInt64.le_antisymm (h.2 m' hmem) (hall m h.1)

/-- Leaving out replica `i` does not change the largest offset exactly when another replica reaches its offset. -/
theorem largest_without {l : List (UInt64 × Nat)} {i : Nat} {f g : UInt64 × Nat → Option UInt64}
    (hkeep : ∀ x ∈ l, x.2 ≠ i → g x = f x) (hdrop : ∀ x ∈ l, x.2 = i → g x = none) :
    (l.filterMap g).foldl better none = (l.filterMap f).foldl better none ↔
      ∀ x ∈ l, x.2 = i → ∀ o, f x = some o → ∃ y ∈ l, y.2 ≠ i ∧ ∃ o', f y = some o' ∧ o ≤ o' := by
  have hsub {o : UInt64} : o ∈ l.filterMap g ↔ ∃ y ∈ l, y.2 ≠ i ∧ f y = some o := by
    rw [List.mem_filterMap]
    constructor
    · rintro ⟨y, hy, ho⟩
      have hne : y.2 ≠ i := by
        intro he
        rw [hdrop y hy he] at ho
        cases ho
      exact ⟨y, hy, hne, hkeep y hy hne ▸ ho⟩
    · rintro ⟨y, hy, hne, ho⟩
      exact ⟨y, hy, (hkeep y hy hne).trans ho⟩
  constructor
  · intro heq x hx _ o ho
    have hmem : o ∈ l.filterMap f := List.mem_filterMap.mpr ⟨x, hx, ho⟩
    obtain ⟨m, hm, hlargest⟩ := foldl_better_none (List.ne_nil_of_mem hmem)
    rw [hm, foldl_better_eq_some] at heq
    obtain ⟨y, hy, hne, hy'⟩ := hsub.mp heq.1
    exact ⟨y, hy, hne, m, hy', hlargest.2 o hmem⟩
  · intro hcov
    cases hm : (l.filterMap f).foldl better none with
    | none =>
      have hnil : l.filterMap f = [] := by
        by_contra hne
        obtain ⟨m, hm', -⟩ := foldl_better_none hne
        rw [hm'] at hm
        cases hm
      have hnil' : l.filterMap g = [] := by
        rw [List.eq_nil_iff_forall_not_mem]
        intro o ho
        obtain ⟨y, hy, -, hy'⟩ := hsub.mp ho
        have hmem : o ∈ l.filterMap f := List.mem_filterMap.mpr ⟨y, hy, hy'⟩
        rw [hnil] at hmem
        cases hmem
      rw [hnil']
      rfl
    | some m =>
      obtain ⟨hmem, hall⟩ := foldl_better_eq_some.mp hm
      have hle : ∀ o ∈ l.filterMap g, o ≤ m := by
        intro o ho
        obtain ⟨y, hy, -, hy'⟩ := hsub.mp ho
        exact hall o (List.mem_filterMap.mpr ⟨y, hy, hy'⟩)
      rw [foldl_better_eq_some]
      refine ⟨?_, hle⟩
      obtain ⟨x, hx, hxm⟩ := List.mem_filterMap.mp hmem
      by_cases hxi : x.2 = i
      · obtain ⟨y, hy, hne, o', ho', hmo⟩ := hcov x hx hxi m hxm
        have hin : o' ∈ l.filterMap g := hsub.mpr ⟨y, hy, hne, ho'⟩
        rwa [UInt64.le_antisymm hmo (hle o' hin)]
      · exact hsub.mpr ⟨x, hx, hxi, hxm⟩

variable {P : Primitives} {d d' : Device} {L : Layout} {s : JvckMetadataStore} {c : VisibleCodec}

theorem loadOffset_eq_iff {d₁ d₂ : Device} :
    s.loadOffset P d₂ = s.loadOffset P d₁ ↔ s.loadLoop P d₂ 0 none s.lbas = s.loadLoop P d₁ 0 none s.lbas := by
  rw [JvckMetadataStore.loadOffset, JvckMetadataStore.loadOffset]
  constructor
  · cases s.loadLoop P d₂ 0 none s.lbas <;> cases s.loadLoop P d₁ 0 none s.lbas <;> simp
  · intro h
    rw [h]

/-- `load_offset` does not notice the loss of replica `i` exactly when its offset is covered. -/
theorem loadOffset_replaced_iff (hon : On s.toPlacement L d) (hc : s.codec = c.codec) {i : Nat} (hi : i < L.count)
    (hrep : Replaced P d d' (UInt64.ofNat (L.metaLba i))) :
    s.loadOffset P d' = s.loadOffset P d ↔ Covered P s d i (UInt64.ofNat (L.metaLba i)) := by
  have hf : Frame (· = L.metaLba i) d d' := by
    have hframe := hrep.frame
    rwa [hon.layout.toNat_metaLba hi] at hframe
  have hmem : ∀ x ∈ s.lbas.zipIdx 0, x.2 < L.count ∧ x.1 = UInt64.ofNat (L.metaLba x.2) := by
    intro x hx
    rw [zipIdx_lbas hon] at hx
    obtain ⟨j, hj, rfl⟩ := List.mem_map.mp hx
    exact ⟨List.mem_range.mp hj, rfl⟩
  rw [loadOffset_eq_iff, loadLoop_eq, loadLoop_eq, largest_without (i := i)]
  · constructor
    · intro h o ho
      have hin : (UInt64.ofNat (L.metaLba i), i) ∈ s.lbas.zipIdx 0 := by
        rw [zipIdx_lbas hon]
        exact List.mem_map.mpr ⟨i, List.mem_range.mpr hi, rfl⟩
      exact h _ hin rfl o ho
    · rintro h x hx rfl o ho
      rw [(hmem x hx).2] at ho
      exact h o ho
  · intro x hx hne
    rw [(hmem x hx).2]
    exact replicaOffset_replaced hon hf (hmem x hx).1 hne hc
  · rintro x hx rfl
    rw [(hmem x hx).2]
    exact replicaOffset_invalid hon hi hrep

end Offsets

/-! ## Phase A without one block -/

section PhaseA

variable {P : Primitives} {d d' : Device} {lba : UInt64} {r : JvckMetadataReader}

/-- Phase A after the replacement, in terms of the image before it. -/
theorem openReader_replaced (hopen : JvckMetadataReader.openReader P d = .ok r) (hn : 2 ≤ d.sectors)
    (hrep : Replaced P d d' lba) :
    JvckMetadataReader.openReader P d' =
      if lba.toNat ≠ d.sectors - 1 ∧ JvckMetadata.verifyCrc P (blockAt d (d.sectors - 1)).toList = .ok () then .ok r
      else if d.readFault 0 then .error (.io "read_sectors failed")
      else if lba.toNat ≠ 0 ∧ JvckMetadata.verifyCrc P (blockAt d 0).toList = .ok () then openBlock P d (blockAt d 0)
      else .error (.notFound "no JVCK metadata present") := by
  have hf := hrep.frame
  have hs : 512 ≤ d.ss := (openReader_inv hopen).1
  obtain ⟨hlast, -⟩ := readable_of_openReader hs (by omega) hopen
  have hvalid (k : Nat) : JvckMetadata.verifyCrc P (blockAt d' k).toList = .ok () ↔
      lba.toNat ≠ k ∧ JvckMetadata.verifyCrc P (blockAt d k).toList = .ok () := by
    by_cases hk : k = lba.toNat
    · subst hk
      simp [hrep.invalid]
    · rw [blockAt_frame hf hk]
      simp [Ne.symm hk]
  rw [openReader_eq (by rw [hf.ss]; exact hs) (by rw [hf.sectors]; omega), hf.sectors, hf.readFault, hlast,
    if_neg (by simp)]
  simp only [hvalid]
  split
  · rename_i hcond
    rw [blockAt_frame hf (Ne.symm hcond.1), OpenIndependence.openBlock_frame hf]
    rwa [openReader_eq hs (by omega), hlast, if_neg (by simp), if_pos hcond.2] at hopen
  · split
    · rfl
    · split
      · rename_i hcond
        rw [blockAt_frame hf (Ne.symm hcond.1), OpenIndependence.openBlock_frame hf]
      · rfl

theorem openBlock_of_header (hopen : JvckMetadataReader.openReader P d = .ok r) {block : Fixed 512}
    (hp : JvckMetadata.parse P block.toList = .ok r.header) : openBlock P d block = .ok r := by
  obtain ⟨-, -, -, L, hL, hr⟩ := openReader_inv hopen
  rw [openBlock_eq hp hL]
  exact congrArg _ hr.symm

/-- Two readers of one device with the same header are the same. -/
theorem openBlock_header_unique (hopen : JvckMetadataReader.openReader P d = .ok r) {block : Fixed 512}
    {r' : JvckMetadataReader} (h : openBlock P d block = .ok r') (hh : r'.header = r.header) : r' = r := by
  have hp := (openBlock_inv h).1
  rw [hh] at hp
  exact Except.ok.inj (h.symm.trans (openBlock_of_header hopen hp))

/-- Unless another header is in the way, Phase A ends as before or not at all. -/
theorem openReader_replaced_iff (hopen : JvckMetadataReader.openReader P d = .ok r) (hn : 2 ≤ d.sectors)
    (hrep : Replaced P d d' lba) (hother : ¬ OtherHeader P r d lba) {r' : JvckMetadataReader} :
    JvckMetadataReader.openReader P d' = .ok r' ↔ r' = r ∧ HeaderElsewhere P r d lba := by
  have hs : 512 ≤ d.ss := (openReader_inv hopen).1
  obtain ⟨hlast, hfirst⟩ := readable_of_openReader hs (by omega) hopen
  rw [openReader_replaced hopen hn hrep]
  by_cases hl : lba.toNat = d.sectors - 1
  · rw [if_neg (by simp [hl]), HeaderElsewhere, if_pos hl]
    constructor
    · intro h
      split at h
      · cases h
      · rename_i hread
        split at h
        · have hh : r'.header = r.header := by
            by_contra hne
            exact hother ⟨hl, by simpa using hread, r', h, hne⟩
          have hp := (openBlock_inv h).1
          rw [hh] at hp
          exact ⟨openBlock_header_unique hopen h hh, by simpa using hread, hp⟩
        · cases h
    · rintro ⟨rfl, hread, hp⟩
      rw [if_neg (by simp [hread]), if_pos ⟨by omega, JvckMetadata.verifyCrc_of_parse hp⟩]
      exact openBlock_of_header hopen hp
  · rw [HeaderElsewhere, if_neg hl]
    by_cases hv : JvckMetadata.verifyCrc P (blockAt d (d.sectors - 1)).toList = .ok ()
    · rw [if_pos ⟨hl, hv⟩]
      simp [hv, eq_comm]
    · have hzero := hfirst hv
      have hr : (if JvckMetadata.verifyCrc P (blockAt d 0).toList = .ok () then openBlock P d (blockAt d 0)
          else .error (.notFound "no JVCK metadata present")) = .ok r := by
        rwa [openReader_eq hs (by omega), hlast, if_neg (by simp), if_neg hv, hzero, if_neg (by simp)] at hopen
      rw [if_neg (fun h => hv h.2), hzero, if_neg (by simp)]
      by_cases hz : lba.toNat = 0
      · rw [if_neg (fun h => h.1 hz)]
        simp [hv, hz]
      · split at hr
        · rename_i hcrc
          rw [if_pos ⟨hz, hcrc⟩, hr]
          simp [hz, eq_comm]
        · cases hr

end PhaseA

/-! ## Influence of a rejected replica -/

section Influence

variable {P : Primitives} {d d' : Device} {lba : UInt64} {r : JvckMetadataReader} {vmk : Bytes} {select : Selector}
  {s : JvckMetadataStore} {i : Nat}

/-- An adopted codec sees replicas through their methods, too. -/
theorem codec_visible {j : Nat} {codec : MetadataCodec} {u : Unsealed}
    (h : replicaSelect P r d select.run j lba = some (codec, u)) : ∃ c : VisibleCodec, codec = c.codec := by
  rw [replicaSelect] at h
  split at h
  · cases h
  · split at h
    · cases h
    · rename_i block _ _ _
      rw [Selector.run] at h
      split at h
      · cases h
      · rename_i c _ _
        exact ⟨c, (congrArg Prod.fst (Option.some.inj h)).symm⟩

/-- The stores of both images have the same keys and state; their offsets agree exactly when `load_offset` does. -/
theorem intoStore_replaced {L : Layout} (hon : On r.toPlacement L d) (hi : i < L.count)
    (hstore : r.intoStore P d vmk select.run = .ok s)
    (hrej : Rejected P r d select i (UInt64.ofNat (L.metaLba i)))
    (hrep : Replaced P d d' (UInt64.ofNat (L.metaLba i))) :
    ∃ s' c, r.intoStore P d' vmk select.run = .ok s' ∧ s.toPlacement = r.toPlacement ∧
      s.codec = VisibleCodec.codec c ∧ s'.secrets = s.secrets ∧ s'.state = s.state ∧
      s'.loadOffset P d' = s.loadOffset P d' ∧
      (s.loadOffset P d' = s.loadOffset P d → s'.offset = s.offset) := by
  obtain ⟨codec, u, hfind, hp, hv, hh, hsec, hst, hc, hoff⟩ := intoStore_inv hstore
  obtain ⟨x, -, hx⟩ := List.exists_of_findSome?_eq_some hfind
  obtain ⟨c, rfl⟩ := codec_visible hx
  rw [← findSome_replaced hon hi hrep hrej] at hfind
  obtain ⟨s', hstore'⟩ := intoStore_ok vmk hfind
  obtain ⟨codec', u', hfind', hp', hv', hh', hsec', hst', hc', hoff'⟩ := intoStore_inv hstore'
  obtain ⟨rfl, rfl⟩ := Prod.mk.inj (Option.some.inj (hfind.symm.trans hfind'))
  have hload : s'.loadOffset P d' = s.loadOffset P d' :=
    loadOffset_congr (hp'.trans hp.symm) (hv'.trans hv.symm) (hh'.trans hh.symm) (hc'.trans hc.symm)
  refine ⟨s', c, hstore', hp, hc, hsec'.trans hsec.symm, hst'.trans hst.symm, hload, ?_⟩
  intro heq
  rw [hoff, hoff', hload, heq]

/-- The image with a zeroed block. -/
theorem replaced_exists (P : Primitives) (lba : UInt64) (hs : 512 ≤ d.ss) : ∃ d', Replaced P d d' lba := by
  refine ⟨OpenIndependence.plant d lba.toNat (List.Vector.replicate 512 0), ?_, ?_⟩
  · exact OpenIndependence.plant_frame _ _ _ hs
  · rw [OpenIndependence.blockAt_plant _ _ _ hs]
    intro hv
    have hsig := ((JvckMetadata.verifyCrc_ok_iff _ _).mp hv).2.1
    revert hsig
    decide

theorem reader_on (hopen : JvckMetadataReader.openReader P d = .ok r) (hmem : (lba, i) ∈ r.lbas.zipIdx 0) :
    ∃ L : Layout, On r.toPlacement L d ∧ i < L.count ∧ lba = UInt64.ofNat (L.metaLba i) ∧ 2 ≤ d.sectors := by
  obtain ⟨hs, -, -, L, hL, hr⟩ := openReader_inv hopen
  have hon : On r.toPlacement L d := by
    rw [hr]
    exact readerOf_on hL
  rw [zipIdx_lbas hon] at hmem
  obtain ⟨j, hj, heq⟩ := List.mem_map.mp hmem
  obtain ⟨rfl, rfl⟩ := Prod.mk.inj heq
  replace hj := List.mem_range.mp hj
  refine ⟨L, hon, hj, rfl, ?_⟩
  rw [← hon.total]
  have hfits := L.fits
  have hpos := Nat.mul_pos (Nat.lt_of_le_of_lt (Nat.zero_le _) hj) L.replica_pos
  rw [Layout.count] at hpos
  omega

theorem unchanged_of_covered (hopen : JvckMetadataReader.openReader P d = .ok r)
    (hstore : r.intoStore P d vmk select.run = .ok s) (hmem : (lba, i) ∈ r.lbas.zipIdx 0)
    (hrej : Rejected P r d select i lba) (hother : ¬ OtherHeader P r d lba)
    (hcov : HeaderElsewhere P r d lba → Covered P s d i lba) : Unchanged P vmk select s d lba := by
  obtain ⟨L, hon, hi, rfl, hn⟩ := reader_on hopen hmem
  intro d' r' hrep hopen'
  obtain ⟨rfl, helse⟩ := (openReader_replaced_iff hopen hn hrep hother).mp hopen'
  obtain ⟨s', c, hstore', hp, hc, hsec, hst, hload, hoff⟩ := intoStore_replaced hon hi hstore hrej hrep
  have hons : On s.toPlacement L d := by rw [hp]; exact hon
  have hsame := (loadOffset_replaced_iff hons hc hi hrep).mpr (hcov helse)
  exact ⟨s', hstore', hsec, hst, hoff hsame, hload.trans hsame⟩

theorem covered_of_unchanged (hopen : JvckMetadataReader.openReader P d = .ok r)
    (hstore : r.intoStore P d vmk select.run = .ok s) (hmem : (lba, i) ∈ r.lbas.zipIdx 0)
    (hrej : Rejected P r d select i lba) (hother : ¬ OtherHeader P r d lba) (hun : Unchanged P vmk select s d lba)
    (helse : HeaderElsewhere P r d lba) : Covered P s d i lba := by
  obtain ⟨L, hon, hi, rfl, hn⟩ := reader_on hopen hmem
  obtain ⟨d', hrep⟩ := replaced_exists P (UInt64.ofNat (L.metaLba i)) hon.ss
  have hopen' := (openReader_replaced_iff hopen hn hrep hother).mpr ⟨rfl, helse⟩
  obtain ⟨s', hstore', -, -, -, hload⟩ := hun d' r hrep hopen'
  obtain ⟨s'', c, hstore'', hp, hc, -, -, hload', -⟩ := intoStore_replaced hon hi hstore hrej hrep
  obtain rfl := Except.ok.inj (hstore'.symm.trans hstore'')
  have hons : On s.toPlacement L d := by rw [hp]; exact hon
  exact (loadOffset_replaced_iff hons hc hi hrep).mp (hload'.symm.trans hload)

/-- A rejected replica has no influence exactly when another replica reaches its offset, or when Phase A needs it. -/
theorem rejected_uninfluential_iff (hopen : JvckMetadataReader.openReader P d = .ok r)
    (hstore : r.intoStore P d vmk select.run = .ok s) (hmem : (lba, i) ∈ r.lbas.zipIdx 0)
    (hrej : Rejected P r d select i lba) (hother : ¬ OtherHeader P r d lba) :
    Unchanged P vmk select s d lba ↔ (HeaderElsewhere P r d lba → Covered P s d i lba) :=
  ⟨covered_of_unchanged hopen hstore hmem hrej hother, unchanged_of_covered hopen hstore hmem hrej hother⟩

/-- The default suite, as a codec that sees replicas through their methods. -/
def visibleCbc (P : Primitives) : VisibleCodec where
  unsealPayload v vmk := do
    let (encryptedOffset, state, secrets) ← JvckMetadata.decryptPayload P v.block.toList vmk
    return { encryptedOffset, state, secrets }
  sealPayload := (jvckCbcCodec P).sealPayload
  readOffset v vmk := JvckMetadata.readEncryptedOffset P v.block.toList vmk

theorem visibleCbc_codec (P : Primitives) : (visibleCbc P).codec = jvckCbcCodec P := rfl

/-- Takes any replica but the first one. -/
def skipFirst (P : Primitives) (vmk : Bytes) : Selector := fun v =>
  if v.replicaIndex = 0 then .error (.validationFailed "replica not trusted")
  else do
    let unsealed ← (visibleCbc P).unsealPayload v vmk
    return (visibleCbc P, unsealed)

theorem skipFirst_run (P : Primitives) (vmk : Bytes) (ctx : ReplicaCtx) (h : ctx.replicaIndex ≠ 0) :
    (skipFirst P vmk).run ctx = selectWith (jvckCbcCodec P) vmk ctx := by
  have hview : (view ctx).replicaIndex ≠ 0 := h
  have hu : (visibleCbc P).unsealPayload (view ctx) vmk = (jvckCbcCodec P).unsealPayload ctx vmk := rfl
  rw [Selector.run, skipFirst, if_neg hview, hu, selectWith]
  cases (jvckCbcCodec P).unsealPayload ctx vmk <;> rfl

/-- Any replica but the first is selected as the default codec selects it. -/
theorem replicaSelect_skipFirst {r : JvckMetadataReader} {i : Nat} (hi : i ≠ 0) (vmk : Bytes) (lba : UInt64) :
    replicaSelect P r d (skipFirst P vmk).run i lba = replicaSelect P r d (selectWith (jvckCbcCodec P) vmk) i lba := by
  have hrun (block : Fixed 512) := skipFirst_run P vmk (r.ctx r.header d i block) hi
  rw [replicaSelect, replicaSelect]
  simp only [hrun]

/-- Two footer replicas of which the selector rejects the first. -/
theorem open_skipFirst {K : Suite} {content : Nat → Option (UInt64 × VolumeState)} (hK : K.codec = jvckCbcCodec P)
    (hL : twoFooters.Of d.sectorSize d.totalSectors (JvckMetadataReader.optionsOf K.header))
    (h : K.Holds P twoFooters d content) {c₀ c₁ : UInt64 × VolumeState} (h₀ : content 0 = some c₀)
    (h₁ : content 1 = some c₁) :
    ∃ r s, JvckMetadataReader.openReader P d = .ok r ∧ r.intoStore P d K.vmk (skipFirst P K.vmk).run = .ok s ∧
      (767, 0) ∈ r.lbas.zipIdx 0 ∧ Rejected P r d (skipFirst P K.vmk) 0 767 ∧ ¬ OtherHeader P r d 767 ∧
      s.loadOffset P d = .ok (max c₀.1 c₁.1) ∧ (c₀.1 ≤ c₁.1 → Covered P s d 0 767) ∧
      (Unchanged P K.vmk (skipFirst P K.vmk) s d 767 → c₀.1 ≤ c₁.1) := by
  have hc : LawfulCodec P K.codec := by
    rw [hK]
    exact jvckCbcCodec_lawful P
  have htot : twoFooters.total = d.sectors := hL.total
  have hlast := intact_last hL h h₁
  have hon : On (readerOf K.header twoFooters d).toPlacement twoFooters d := readerOf_on hL
  have hopen := openReader_of_last hc hL hlast
  have hlbas : (readerOf K.header twoFooters d).lbas.zipIdx 0 = [(767, 0), (1023, 1)] := zipIdx_lbas hon
  have hcrc := hlast.verifyCrc hc
  obtain ⟨-, -, -, -, hread, hvalid⟩ | ⟨hcon, -⟩ | ⟨hcon, -⟩ := h.inspect hc hon (i := 0) (by decide)
  · have hrej : Rejected P (readerOf K.header twoFooters d) d (skipFirst P K.vmk) 0 767 :=
      ⟨_, _, hread, hvalid, rfl⟩
    have hsel := replicaSelect_of_holds hc hon rfl h (i := 1) (by decide)
    have hsel' : replicaSelect P (readerOf K.header twoFooters d) d (skipFirst P K.vmk).run 1 1023 =
        (content 1).map fun p => (K.codec, ⟨p.1, p.2, K.secrets⟩) := by
      rw [← hsel, hK, replicaSelect_skipFirst Nat.one_ne_zero]
      rfl
    have hfind : ((readerOf K.header twoFooters d).lbas.zipIdx 0).findSome?
        (fun x => replicaSelect P (readerOf K.header twoFooters d) d (skipFirst P K.vmk).run x.2 x.1) =
          some (K.codec, ⟨c₁.1, c₁.2, K.secrets⟩) := by
      rw [hlbas]
      simp [replicaSelect_rejected hrej, hsel', h₁]
    obtain ⟨s, hstore⟩ := intoStore_ok K.vmk hfind
    obtain ⟨codec, u, hfind', hp, hv, hh, -, -, hcodec, -⟩ := intoStore_inv hstore
    obtain ⟨rfl, rfl⟩ := Prod.mk.inj (Option.some.inj (hfind.symm.trans hfind'))
    have hons : On s.toPlacement twoFooters d := by rw [hp]; exact hon
    have hoff₀ := replicaOffset_of_holds hc hons hcodec hh hv h (i := 0) (by decide)
    have hoff₁ := replicaOffset_of_holds hc hons hcodec hh hv h (i := 1) (by decide)
    replace hoff₀ : replicaOffset P s d 0 767 = some c₀.1 := hoff₀.trans (by rw [h₀]; rfl)
    replace hoff₁ : replicaOffset P s d 1 1023 = some c₁.1 := hoff₁.trans (by rw [h₁]; rfl)
    have hslbas : s.lbas.zipIdx 0 = [(767, 0), (1023, 1)] := by rw [hp]; exact hlbas
    have hmem : (767, 0) ∈ (readerOf K.header twoFooters d).lbas.zipIdx 0 := by
      rw [hlbas]
      exact List.mem_cons_self
    have hother : ¬ OtherHeader P (readerOf K.header twoFooters d) d 767 := by
      rintro ⟨hl, -⟩
      rw [← htot] at hl
      exact absurd hl (by decide)
    have helse : HeaderElsewhere P (readerOf K.header twoFooters d) d 767 := by
      rw [HeaderElsewhere, if_neg (by rw [← htot]; decide)]
      exact .inl hcrc
    refine ⟨_, s, hopen, hstore, hmem, hrej, hother, ?_, ?_, ?_⟩
    · rw [JvckMetadataStore.loadOffset, loadLoop_eq, hslbas]
      simp only [List.filterMap_cons, hoff₀, hoff₁, List.filterMap_nil]
      rfl
    · intro hle o ho
      obtain rfl := Option.some.inj (hoff₀.symm.trans ho)
      rw [hslbas]
      exact ⟨(1023, 1), List.mem_cons_of_mem _ List.mem_cons_self, Nat.one_ne_zero, c₁.1, hoff₁, hle⟩
    · intro hun
      obtain ⟨y, hy, hne, o', ho', hle⟩ :=
        covered_of_unchanged hopen hstore hmem hrej hother hun helse c₀.1 hoff₀
      rw [hslbas] at hy
      rcases List.mem_cons.mp hy with rfl | hy
      · exact absurd rfl hne
      · obtain rfl := List.mem_singleton.mp hy
        obtain rfl := Option.some.inj (hoff₁.symm.trans ho')
        exact hle
  · rw [h₀] at hcon
    cases hcon
  · rw [h₀] at hcon
    cases hcon

/-- Both replicas hold offset 5, so the one that the selector rejects has no influence. -/
theorem rejected_copy_uninfluential :
    ∃ r s, JvckMetadataReader.openReader JvckMetadata.standard (JvckRecovery.sampleDevice 5 .encrypt) = .ok r ∧
      r.intoStore JvckMetadata.standard (JvckRecovery.sampleDevice 5 .encrypt) [1, 2, 3]
        (skipFirst JvckMetadata.standard [1, 2, 3]).run = .ok s ∧
      Rejected JvckMetadata.standard r (JvckRecovery.sampleDevice 5 .encrypt)
        (skipFirst JvckMetadata.standard [1, 2, 3]) 0 767 ∧
      Unchanged JvckMetadata.standard [1, 2, 3] (skipFirst JvckMetadata.standard [1, 2, 3]) s
        (JvckRecovery.sampleDevice 5 .encrypt) 767 := by
  obtain ⟨hsync, -⟩ := JvckRecovery.sampleDevice_synced 5 .encrypt
  have hholds := JvckRecovery.sampleDevice_holds 5 .encrypt
  obtain ⟨r, s, hopen, hstore, hmem, hrej, hother, -, hcov, -⟩ := open_skipFirst rfl hsync.layoutOf hholds rfl rfl
  exact ⟨r, s, hopen, hstore, hrej,
    (rejected_uninfluential_iff hopen hstore hmem hrej hother).mpr fun _ => hcov (UInt64.le_refl 5)⟩

/-- A store of offset 10 was cut off behind the first of two replicas. The selector rejects that replica, and opening
still tracks its offset. -/
theorem rejected_replica_tracked :
    ∃ r s, JvckMetadataReader.openReader JvckMetadata.standard (JvckRecovery.sampleCut 5 .encrypt 10) = .ok r ∧
      r.intoStore JvckMetadata.standard (JvckRecovery.sampleCut 5 .encrypt 10) [1, 2, 3]
        (skipFirst JvckMetadata.standard [1, 2, 3]).run = .ok s ∧
      Rejected JvckMetadata.standard r (JvckRecovery.sampleCut 5 .encrypt 10)
        (skipFirst JvckMetadata.standard [1, 2, 3]) 0 767 ∧
      s.loadOffset JvckMetadata.standard (JvckRecovery.sampleCut 5 .encrypt 10) = .ok 10 ∧
      ¬ Unchanged JvckMetadata.standard [1, 2, 3] (skipFirst JvckMetadata.standard [1, 2, 3]) s
        (JvckRecovery.sampleCut 5 .encrypt 10) 767 := by
  obtain ⟨hsync, -⟩ := JvckRecovery.sampleDevice_synced 5 .encrypt
  obtain ⟨hcut, hd⟩ := JvckRecovery.sampleCut_eq 5 .encrypt 10
  have hholds := JvckRecovery.storeCutOff_holds (P := JvckMetadata.standard) hsync hcut fun i _ => hd.readFault _
  obtain ⟨hframe, -⟩ := writeReplicas_spec
    (s := { JvckRecovery.sampleStore 5 .encrypt with offset := 10 }) hsync.on hcut
  have hL : twoFooters.Of (JvckRecovery.sampleCut 5 .encrypt 10).sectorSize
      (JvckRecovery.sampleCut 5 .encrypt 10).totalSectors
      (JvckMetadataReader.optionsOf (suiteOf (JvckRecovery.sampleStore 5 .encrypt)).header) :=
    (hsync.on.frame hframe).layout
  obtain ⟨r, s, hopen, hstore, -, hrej, -, hload, -, hun⟩ := open_skipFirst rfl hL hholds
    (show _ = some ((10 : UInt64), VolumeState.encrypt) from rfl)
    (show _ = some ((5 : UInt64), VolumeState.encrypt) from rfl)
  refine ⟨r, s, hopen, hstore, hrej, hload, ?_⟩
  intro h
  have hle : (10 : UInt64) ≤ 5 := hun h
  exact absurd hle (by decide)

end Influence

end SelectorInfluence
