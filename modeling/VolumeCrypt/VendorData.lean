import VolumeCrypt.OpenedStore

/-!
# Vendor data of an opened volume

Every replica region has one Metadata sector and leaves the rest to the vendor. The store,
the reader of Phase A and the context of a single replica all read that area
(`lib/common/src/jvck/store.rs`, `codec.rs`), each with its own checks; only the store
writes it. The device may have changed since the volume was opened.
-/
namespace VendorData

open ByteString ByteMemory VckTypes SectorIo JvckLayout JvckStore JvckReplicas JvckRuns OpenedStore
open JvckMetadata (Primitives JvckHeader)

/-- A request that the vendor area of replica `i` has: whole sectors, at least one, that end inside it. -/
structure Accepts (L : Layout) (ss i : Nat) (rel : UInt64) (len : Nat) : Prop where
  index : i < L.count
  nonempty : 0 < len
  whole : len % ss = 0
  inside : rel.toNat + len / ss ≤ L.replica - 1

/-- The request was turned down before the device saw it. -/
def Refused {α : Type} (x : VckResult α) : Prop :=
  x = .error (.invalidData "vendor data buffer must be a non-zero multiple of the sector size") ∨
    x = .error (.notFound "vendor data replica index out of range") ∨
      x = .error (.validationFailed "vendor data range exceeds the replica region")

/-- `x` is the answer to an accepted request from the sectors it names, or the refusal of any other request. -/
def Serves (L : Layout) (d : Device) (i : Nat) (rel : UInt64) (len : Nat) (x : VckResult Bytes) : Prop :=
  Accepts L d.ss i rel len ∧ x = readSectors d (UInt64.ofNat (L.vendorBase i + rel.toNat)) len ∨
    ¬ Accepts L d.ss i rel len ∧ Refused x

/-- `d'` is `d` with `buf` in the vendor area of replica `i`, and nothing else changed. -/
structure Written (L : Layout) (d d' : Device) (i : Nat) (rel : UInt64) (buf : Bytes) : Prop where
  accepted : Accepts L d.ss i rel buf.length
  frame : Frame (fun lba => L.vendorBase i + rel.toNat ≤ lba ∧
    lba < L.vendorBase i + rel.toNat + buf.length / d.ss) d d'
  content : d'.area (L.vendorBase i + rel.toNat) (buf.length / d.ss) = buf
  metadata : ∀ j, j < L.count → d'.sector (L.metaLba j) = d.sector (L.metaLba j)
  data : ∀ lba, L.InData lba → d'.sector lba = d.sector lba
  others : ∀ j r, j < L.count → r < L.replica - 1 → j ≠ i →
    d'.sector (L.vendorBase j + r) = d.sector (L.vendorBase j + r)

/-- The vendor data API of the reader `r` and the store `s` of a volume with layout `L`, on the device `d`. -/
structure VendorAccess (P : Primitives) (L : Layout) (r : JvckMetadataReader) (s : JvckMetadataStore) (d : Device) :
    Prop where
  store : ∀ i rel len, len < 2 ^ 64 → Serves L d i rel len (s.readVendorData d i rel len)
  reader : ∀ i rel len, len < 2 ^ 64 → Serves L d i rel len (r.readVendorData d i rel len)
  ctx : ∀ i rel len ctx, len < 2 ^ 64 → r.replicaCtx P d i = .ok ctx → Serves L d i rel len (ctx.readVendorData rel len)
  noCtx : ∀ i, ¬ i < L.count → ∃ e, r.replicaCtx P d i = .error e
  write : ∀ i rel buf d', s.writeVendorData d i rel buf = (.ok (), d') → Written L d d' i rel buf
  refusedAll : ∀ rel buf, buf.length < 2 ^ 64 → ¬ Accepts L d.ss 0 rel buf.length →
    Refused (s.writeVendorDataAll d rel buf).1 ∧ (s.writeVendorDataAll d rel buf).2 = d
  writtenAll : ∀ rel buf d', s.writeVendorDataAll d rel buf = (.ok (), d') → ∀ i, i < L.count →
    d'.area (L.vendorBase i + rel.toNat) (buf.length / d.ss) = buf ∧
      ((∀ lba, d.readFault lba = false) → s.readVendorData d' i rel buf.length = .ok buf)

section Access

variable {P : Primitives} {L : Layout} {p : Placement} {d d' : Device} {i : Nat} {rel : UInt64} {len : Nat}

theorem accepts_iff (h : On p L d) (hlen : len < 2 ^ 64) :
    Accepts L d.ss i rel len ↔ p.vendorDataLba i rel len = .ok (UInt64.ofNat (L.vendorBase i + rel.toNat)) := by
  have hs : 0 < d.ss := Nat.lt_of_lt_of_le (by decide) h.ss
  rw [vendorDataLba_ok_iff h hlen]
  constructor
  · intro ha
    refine ⟨len / d.ss, ?_, ?_, ha.index, ha.inside, rfl⟩
    · exact Nat.div_pos (Nat.le_of_dvd ha.nonempty (Nat.dvd_of_mod_eq_zero ha.whole)) hs
    · exact (Nat.div_mul_cancel (Nat.dvd_of_mod_eq_zero ha.whole)).symm
  · rintro ⟨n, hn, rfl, hi, hle, -⟩
    refine ⟨hi, Nat.mul_pos hn hs, Nat.mul_mod_left _ _, ?_⟩
    rw [Nat.mul_div_cancel _ hs]
    exact hle

theorem vendorLba_refused {sectorSize : UInt32} {base : Option UInt64} {count : UInt64} {e : VckError}
    (h : vendorLba sectorSize base count rel len = .error e) (α : Type) : Refused (Except.error e : VckResult α) := by
  unfold vendorLba at h
  simp only at h
  split at h
  · cases h
    exact .inl rfl
  · split at h
    · cases h
      exact .inr (.inl rfl)
    · split at h
      · cases h
        exact .inr (.inr rfl)
      · split at h
        · cases h
          exact .inr (.inr rfl)
        · cases h

/-- The checks and then the device: what all three readers do. -/
theorem serves_checked (h : On p L d) (hlen : len < 2 ^ 64) :
    Serves L d i rel len
      (do let lba ← p.vendorDataLba i rel len
          readSectors d lba len) := by
  cases hl : p.vendorDataLba i rel len with
  | error e =>
    refine .inr ⟨?_, vendorLba_refused hl Bytes⟩
    rw [accepts_iff h hlen, hl]
    simp
  | ok lba =>
    obtain ⟨n, _, _, _, _, rfl⟩ := (vendorDataLba_ok_iff h hlen).mp hl
    exact .inl ⟨(accepts_iff h hlen).mpr hl, rfl⟩

/-- The reader hands out a context for the replicas of the layout only. -/
theorem replicaCtx_inv {r : JvckMetadataReader} (h : On r.toPlacement L d) {ctx : ReplicaCtx}
    (hctx : r.replicaCtx P d i = .ok ctx) : i < L.count ∧ ∃ block, ctx = r.ctx r.header d i block := by
  rw [JvckMetadataReader.replicaCtx] at hctx
  cases hl : r.lbas[i]? with
  | none =>
    rw [hl] at hctx
    cases hctx
  | some lba =>
    have hi : i < r.lbas.length := (List.getElem?_eq_some_iff.mp hl).1
    rw [h.length_lbas] at hi
    rw [hl] at hctx
    simp only [bind, Except.bind] at hctx
    split at hctx
    · cases hctx
    · split at hctx
      · cases hctx
      · exact ⟨hi, _, (Except.ok.inj hctx).symm⟩

theorem replicaCtx_out_of_range {r : JvckMetadataReader} (h : On r.toPlacement L d) (hi : ¬ i < L.count) :
    r.replicaCtx P d i = .error (.notFound "replica index out of range") := by
  rw [JvckMetadataReader.replicaCtx, List.getElem?_eq_none (by rw [h.length_lbas]; omega)]

theorem area_eq_of_sectors {lo n : Nat} {buf : Bytes} (hs : 0 < d.ss) (hss : d'.ss = d.ss)
    (hbl : buf.length = n * d.ss) (h : ∀ k, k < n → d'.sector (lo + k) = slice buf (k * d.ss) d.ss) :
    d'.area lo n = buf := by
  apply eq_of_sectors hs (by rw [length_area, hss]) hbl
  intro k hk
  rw [← hss, slice_area d' hk, h k hk, hss]

theorem written_of_write {s : JvckMetadataStore} (h : On s.toPlacement L d) {buf : Bytes}
    (hw : s.writeVendorData d i rel buf = (.ok (), d')) : Written L d d' i rel buf := by
  have hs : 0 < d.ss := Nat.lt_of_lt_of_le (by decide) h.ss
  obtain ⟨n, hn, hbl, hi, hle, hframe, hsec⟩ := writeVendorData_range h hw
  have hdiv : buf.length / d.ss = n := by rw [hbl, Nat.mul_div_cancel _ hs]
  have hout {lba : Nat} (hl : ∀ q, q < L.replica - 1 → lba ≠ L.vendorBase i + q) : d'.sector lba = d.sector lba := by
    apply hframe.sector_eq
    rintro ⟨h₁, h₂⟩
    exact hl (lba - L.vendorBase i) (by omega) (by omega)
  constructor
  · refine ⟨hi, by rw [hbl]; exact Nat.mul_pos hn hs, by rw [hbl]; exact Nat.mul_mod_left _ _, ?_⟩
    rw [hdiv]
    exact hle
  · rw [hdiv]
    exact hframe
  · rw [hdiv]
    exact area_eq_of_sectors hs hframe.ss hbl fun k hk => by
      rw [hsec, if_pos (by omega), Nat.add_sub_cancel_left]
  · intro j _
    exact hout fun q hq he => L.vendor_not_meta j hq he.symm
  · intro lba hdata
    apply hout
    rintro q hq rfl
    exact L.vendor_not_data hi hq hdata
  · intro j r _ hr hji
    exact hout fun q hq he => hji (L.vendor_injective hr hq he).1

theorem refused_all {s : JvckMetadataStore} (h : On s.toPlacement L d) {buf : Bytes} (hlen : buf.length < 2 ^ 64)
    (ha : ¬ Accepts L d.ss 0 rel buf.length) :
    Refused (s.writeVendorDataAll d rel buf).1 ∧ (s.writeVendorDataAll d rel buf).2 = d := by
  rw [JvckMetadataStore.writeVendorDataAll]
  cases hl : s.vendorDataLba 0 rel buf.length with
  | error e => exact ⟨vendorLba_refused hl Unit, rfl⟩
  | ok lba =>
    obtain ⟨n, _, _, _, _, rfl⟩ := (vendorDataLba_ok_iff h hlen).mp hl
    exact absurd ((accepts_iff h hlen).mpr hl) ha

/-- The loop over a layout with a replica makes a first write. -/
theorem first_write {s : JvckMetadataStore} {buf : Bytes} {n : Nat} (hn : 0 < n)
    (hw : s.writeVendorLoop rel buf n 0 d = (.ok (), d')) : ∃ d₁, s.writeVendorData d 0 rel buf = (.ok (), d₁) := by
  obtain ⟨m, rfl⟩ : ∃ m, n = m + 1 := ⟨n - 1, by omega⟩
  rw [JvckMetadataStore.writeVendorLoop] at hw
  generalize s.writeVendorData d 0 rel buf = w at hw
  obtain ⟨x, d₁⟩ := w
  cases x with
  | error e => cases (Prod.mk.inj hw).1
  | ok u => exact ⟨d₁, rfl⟩

theorem written_all {s : JvckMetadataStore} (h : On s.toPlacement L d) {buf : Bytes}
    (hw : s.writeVendorDataAll d rel buf = (.ok (), d')) (hi : i < L.count) :
    d'.area (L.vendorBase i + rel.toNat) (buf.length / d.ss) = buf ∧
      ((∀ lba, d.readFault lba = false) → s.readVendorData d' i rel buf.length = .ok buf) := by
  have hs : 0 < d.ss := Nat.lt_of_lt_of_le (by decide) h.ss
  have hcount : s.replicaCount = L.count := replicaCount_eq h
  rw [JvckMetadataStore.writeVendorDataAll] at hw
  cases hl : s.vendorDataLba 0 rel buf.length with
  | error e =>
    rw [hl] at hw
    cases (Prod.mk.inj hw).1
  | ok lba =>
    rw [hl] at hw
    simp only [hcount] at hw
    obtain ⟨d₁, hfirst⟩ := first_write (Nat.lt_of_le_of_lt (Nat.zero_le i) hi) hw
    obtain ⟨n, hn, hbl, -, hle, -⟩ := writeVendorData_range h hfirst
    obtain ⟨hframe, hsec⟩ := writeVendorLoop_spec h hw
    have hdiv : buf.length / d.ss = n := by rw [hbl, Nat.mul_div_cancel _ hs]
    have harea : d'.area (L.vendorBase i + rel.toNat) n = buf := by
      apply area_eq_of_sectors hs hframe.ss hbl
      intro k hk
      rw [Nat.add_assoc, hsec i (rel.toNat + k) hi (by omega), hdiv, if_pos ⟨by omega, by omega⟩,
        Nat.add_sub_cancel_left]
    refine ⟨by rw [hdiv]; exact harea, ?_⟩
    intro hread
    have hread' := readVendor_eq (h.frame hframe) (by rw [hframe.readFault]; exact hread) hi hn hle
    rw [hframe.ss, ← hbl, harea] at hread'
    exact hread'

end Access

/-- The vendor data API of every opened volume, on whatever its device holds by now. -/
theorem vendor_access {P : Primitives} {d₀ : Device} {r : JvckMetadataReader} {s : JvckMetadataStore} {vmk : Bytes}
    {select : ReplicaCtx → VckResult (MetadataCodec × Unsealed)} (hopen : JvckMetadataReader.openReader P d₀ = .ok r)
    (hstore : r.intoStore P d₀ vmk select = .ok s) :
    ∃ L : Layout, L.Of d₀.sectorSize d₀.totalSectors r.options ∧
      ∀ d : Device, d.sectorSize = d₀.sectorSize → d.totalSectors = d₀.totalSectors → VendorAccess P L r s d := by
  obtain ⟨-, -, -, L, hL, hr⟩ := openReader_inv hopen
  obtain ⟨-, -, -, hplace, -⟩ := intoStore_inv hstore
  have hon₀ : On r.toPlacement L d₀ := by
    rw [hr]
    exact readerOf_on hL
  refine ⟨L, hon₀.layout, ?_⟩
  intro d hss htot
  have hon : On r.toPlacement L d := ⟨by rw [hss, htot]; exact hon₀.layout, by rw [hss]; exact hon₀.geometry,
    by rw [htot]; exact hon₀.volumeSectors⟩
  have hons : On s.toPlacement L d := by
    rw [hplace]
    exact hon
  constructor
  · intro i rel len hlen
    exact serves_checked hons hlen
  · intro i rel len hlen
    exact serves_checked hon hlen
  · intro i rel len ctx hlen hctx
    obtain ⟨hi, block, rfl⟩ := replicaCtx_inv hon hctx
    rw [ctx_readVendorData hon hi]
    exact serves_checked hon hlen
  · intro i hi
    exact ⟨_, replicaCtx_out_of_range hon hi⟩
  · intro i rel buf d' hw
    exact written_of_write hons hw
  · intro rel buf hlen ha
    exact refused_all hons hlen ha
  · intro rel buf d' hw i hi
    exact written_all hons hw hi

/-- A volume of two footer replicas, opened with the default codec. -/
theorem two_footers_vendor_access :
    ∃ (L : Layout) (r : JvckMetadataReader) (s : JvckMetadataStore),
      JvckMetadataReader.openReader JvckMetadata.standard (JvckRecovery.sampleDevice 5 .encrypt) = .ok r ∧
      r.intoStore JvckMetadata.standard (JvckRecovery.sampleDevice 5 .encrypt) [1, 2, 3]
        (selectWith (jvckCbcCodec JvckMetadata.standard) [1, 2, 3]) = .ok s ∧
      VendorAccess JvckMetadata.standard L r s (JvckRecovery.sampleDevice 5 .encrypt) := by
  obtain ⟨hsync, -⟩ := JvckRecovery.sampleDevice_synced 5 .encrypt
  have hholds := JvckRecovery.sampleDevice_holds 5 .encrypt
  obtain ⟨s, hopen, -⟩ := open_twoFooters rfl hsync.layoutOf hholds rfl rfl
  obtain ⟨r, hreader, hinto, -⟩ := openStore_reader hopen
  obtain ⟨L, -, haccess⟩ := vendor_access hreader hinto
  exact ⟨L, r, s, hreader, hinto, haccess _ rfl rfl⟩

end VendorData
