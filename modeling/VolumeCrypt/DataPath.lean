import VolumeCrypt.VolumeSweep

/-!
# The data path of the filter

`CryptoPipeline` of `lib/windrv/src/crypto/pipeline.rs` and `process_read` /
`process_write` of `lib/windrv/src/filter/volume_thread.rs`. The pipeline decides
once, from the first sector of a request, how long the prefix is that goes through
the cipher; sector by sector this is the comparison with the boundary.
-/
namespace DataPath

open ByteString VckTypes SectorIo CipherTraits SweepEngine VolumeSweep

/-! ## The pipeline -/

/-- The prefix of the buffer below the boundary goes through `area`, the rest stays. -/
def transformPrefix (area : Bytes → Nat → UInt64 → Bytes) (firstRelSector encryptedOffset : UInt64) (buf : Bytes)
    (sectorSize : Nat) : Bytes :=
  let total := buf.length / sectorSize
  let n := if encryptedOffset ≤ firstRelSector then 0 else min (encryptedOffset - firstRelSector).toNat total
  if n > 0 then area (buf.take (n * sectorSize)) sectorSize firstRelSector ++ buf.drop (n * sectorSize) else buf

def decryptRead (cipher : VolumeCipher) : UInt64 → UInt64 → Bytes → Nat → Bytes := transformPrefix cipher.decryptArea

def encryptWrite (cipher : VolumeCipher) : UInt64 → UInt64 → Bytes → Nat → Bytes := transformPrefix cipher.encryptArea

section Pipeline

variable {area : Bytes → Nat → UInt64 → Bytes} {sector : UInt64 → Bytes → Bytes} {ss n : Nat} {first boundary : UInt64}
  {buf : Bytes}

/-- The length of the prefix, in sectors. -/
theorem prefix_eq (hs : 0 < ss) (hl : buf.length = n * ss) :
    (if boundary ≤ first then 0 else min (boundary - first).toNat (buf.length / ss)) =
      min (boundary.toNat - first.toNat) n := by
  rw [hl, Nat.mul_div_cancel _ hs]
  split
  · rename_i hle
    rw [UInt64.le_iff_toNat_le] at hle
    omega
  · rename_i hlt
    rw [UInt64.le_iff_toNat_le] at hlt
    rw [UInt64.toNat_sub_of_le _ _ (UInt64.le_iff_toNat_le.mpr (by omega))]

theorem length_transformPrefix (harea : AreaLaw ss area sector) :
    (transformPrefix area first boundary buf ss).length = buf.length := by
  unfold transformPrefix
  simp only
  generalize (if boundary ≤ first then 0 else min (boundary - first).toNat (buf.length / ss)) = m
  split
  · rw [List.length_append, harea.length, ← List.length_append, List.take_append_drop]
  · rfl

/-- Sector `k` goes through the cipher exactly when it lies below the boundary. -/
theorem slice_transformPrefix (hs : 0 < ss) (harea : AreaLaw ss area sector) (hl : buf.length = n * ss) {k : Nat}
    (hk : k < n) :
    slice (transformPrefix area first boundary buf ss) (k * ss) ss =
      if first.toNat + k < boundary.toNat then sector (first + UInt64.ofNat k) (slice buf (k * ss) ss)
      else slice buf (k * ss) ss := by
  unfold transformPrefix
  simp only [prefix_eq hs hl]
  generalize hm : min (boundary.toNat - first.toNat) n = m
  have hmn : m * ss ≤ n * ss := Nat.mul_le_mul_right _ (by omega)
  have htake : (buf.take (m * ss)).length = m * ss := by
    rw [List.length_take]
    omega
  by_cases hkm : k < m
  · have hkss : k * ss + ss ≤ m * ss := by
      rw [← Nat.succ_mul]
      exact Nat.mul_le_mul_right _ hkm
    have hlen : (area (buf.take (m * ss)) ss first).length = m * ss := (harea.length _ _).trans htake
    have hin : slice (buf.take (m * ss)) (k * ss) ss = slice buf (k * ss) ss := by
      rw [← slice_zero, slice_slice _ (by omega), Nat.zero_add]
    rw [if_pos (by omega), if_pos (by omega), slice_append_left _ (by omega), harea.slice _ _ k m htake hkm, hin]
  · rw [if_neg (show ¬ first.toNat + k < boundary.toNat by omega)]
    split
    · have hlen : (area (buf.take (m * ss)) ss first).length = m * ss := (harea.length _ _).trans htake
      obtain ⟨j, rfl⟩ : ∃ j, k = m + j := ⟨k - m, by omega⟩
      have hr := slice_append_right (area (buf.take (m * ss)) ss first) (buf.drop (m * ss)) (j * ss) ss
      rw [hlen, ← Nat.add_mul] at hr
      rw [hr, slice, List.drop_drop, ← Nat.add_mul]
      rfl
    · rfl

end Pipeline

/-! ## Requests -/

section Path

variable {σ : Type}

/-- The cipher of the burst, fetched on first use. -/
def getPipeline (burstCipher : Option VolumeCipher) (v : AttachedVolume σ) : Option VolumeCipher × AttachedVolume σ :=
  match burstCipher with
  | some c => (some c, v)
  | none => (v.nextCipher, v.acquired)

/-- `if let Some(..) = crypto_range(..) { if let Some(..) = get_pipeline(..) { .. } }`. -/
def cryptFragment (pipeline : VolumeCipher → UInt64 → UInt64 → Bytes → Nat → Bytes) (v : AttachedVolume σ)
    (burstCipher : Option VolumeCipher) (firstLba : UInt64) (frag : Bytes) (sectorSize : Nat) :
    Bytes × Option VolumeCipher × AttachedVolume σ :=
  match cryptoRange v firstLba with
  | none => (frag, burstCipher, v)
  | some (firstRel, boundary) =>
    match getPipeline burstCipher v with
    | (none, v) => (frag, none, v)
    | (some cipher, v) => (pipeline cipher firstRel boundary frag sectorSize, some cipher, v)

/-- A read or write request, with the outcomes of mapping its buffer and of the pool allocation. -/
structure Irp where
  byteOffset : UInt64
  length : UInt32
  buffer : Bytes
  mapped : Bool
  allocated : Bool

inductive NtStatus where
  | success
  | unsuccessful
  deriving DecidableEq, Repr

/-- How a request ends: `IoStatus`, and what its buffer holds. -/
structure Completion where
  status : NtStatus
  information : Nat
  buffer : Bytes

def Irp.complete (irp : Irp) (status : NtStatus) : Completion := ⟨status, 0, irp.buffer⟩

def processRead (v : AttachedVolume σ) (burstCipher : Option VolumeCipher) (irp : Irp) (d : Device) :
    Completion × Option VolumeCipher × AttachedVolume σ :=
  let length := irp.length.toNat
  let sectorSize := v.sectorSize.toNat
  if sectorSize = 0 ∨ length = 0 then (irp.complete .success, burstCipher, v)
  else
    let firstLba := irp.byteOffset / v.sectorSize.toUInt64
    let sectorCount := length / sectorSize
    if sectorCount = 0 then (irp.complete .success, burstCipher, v)
    else
      let ioLen := sectorCount * sectorSize
      if !irp.mapped || !irp.allocated then (irp.complete .unsuccessful, burstCipher, v)
      else
        match readSectors d firstLba ioLen with
        | .error _ => (irp.complete .unsuccessful, burstCipher, v)
        | .ok frag =>
          let (frag, burstCipher, v) := cryptFragment decryptRead v burstCipher firstLba frag sectorSize
          (⟨.success, ioLen, copyAt irp.buffer 0 frag⟩, burstCipher, v)

def processWrite (v : AttachedVolume σ) (burstCipher : Option VolumeCipher) (irp : Irp) (d : Device) :
    Completion × Option VolumeCipher × AttachedVolume σ × Device :=
  let length := irp.length.toNat
  let sectorSize := v.sectorSize.toNat
  if sectorSize = 0 ∨ length = 0 then (irp.complete .success, burstCipher, v, d)
  else
    let firstLba := irp.byteOffset / v.sectorSize.toUInt64
    let sectorCount := length / sectorSize
    if sectorCount = 0 then (irp.complete .success, burstCipher, v, d)
    else
      let ioLen := sectorCount * sectorSize
      if !irp.mapped || !irp.allocated then (irp.complete .unsuccessful, burstCipher, v, d)
      else
        let (frag, burstCipher, v) :=
          cryptFragment encryptWrite v burstCipher firstLba (irp.buffer.take ioLen) sectorSize
        match writeSectors d firstLba frag with
        | (.error _, d) => (irp.complete .unsuccessful, burstCipher, v, d)
        | (.ok (), d) => (⟨.success, ioLen, irp.buffer⟩, burstCipher, v, d)

/-! ## What a fragment becomes -/

/-- Every cipher that a request can get is this one. -/
structure Keyed (v : AttachedVolume σ) (burstCipher : Option VolumeCipher) (cipher : VolumeCipher) : Prop where
  supplier : ∃ s, v.cipherSupplier = some s ∧ ∀ n, s.getCipher n = some cipher
  burst : burstCipher = none ∨ burstCipher = some cipher

/-- The fields that the data path reads are those of `v`. -/
structure SamePath (v v' : AttachedVolume σ) : Prop where
  sectorSize : v'.sectorSize = v.sectorSize
  ioConfig : v'.ioConfig = v.ioConfig
  encryption : v'.encryption = v.encryption
  offsetStore : v'.offsetStore = v.offsetStore
  encryptedBoundary : v'.encryptedBoundary = v.encryptedBoundary

theorem SamePath.refl (v : AttachedVolume σ) : SamePath v v := ⟨rfl, rfl, rfl, rfl, rfl⟩

theorem samePath_acquired (v : AttachedVolume σ) : SamePath v v.acquired := by
  obtain ⟨hio, henc, hcache, hss, hst⟩ := acquired_fields v
  exact ⟨hss, hio, henc, hst, hcache⟩

theorem Keyed.frame {v v' : AttachedVolume σ} {burst : Option VolumeCipher} {cipher : VolumeCipher}
    (h : Keyed v burst cipher) (hv : SamePath v v') {burst' : Option VolumeCipher}
    (hb : burst' = none ∨ burst' = some cipher) : Keyed v' burst' cipher := by
  refine ⟨?_, hb⟩
  rw [AttachedVolume.cipherSupplier, hv.ioConfig]
  exact h.supplier

theorem Keyed.getPipeline_eq {v : AttachedVolume σ} {burst : Option VolumeCipher} {cipher : VolumeCipher}
    (h : Keyed v burst cipher) : ∃ v', getPipeline burst v = (some cipher, v') ∧ SamePath v v' := by
  rcases h.burst with hb | hb
  · obtain ⟨s, hs, hall⟩ := h.supplier
    refine ⟨v.acquired, ?_, samePath_acquired v⟩
    rw [hb, getPipeline, AttachedVolume.nextCipher, hs, Option.bind_some, hall]
  · exact ⟨v, by rw [hb]; rfl, .refl v⟩

/-- The first sector decides for the whole fragment: if it is an encrypted one, every sector below the
boundary is transformed, and otherwise none. -/
theorem cryptFragment_sectors (pipeline : VolumeCipher → UInt64 → UInt64 → Bytes → Nat → Bytes) {v : AttachedVolume σ}
    {burst : Option VolumeCipher} {cipher : VolumeCipher} {ss n : Nat} {area : Bytes → Nat → UInt64 → Bytes}
    {sector : UInt64 → Bytes → Bytes} (hp : pipeline cipher = transformPrefix area) (harea : AreaLaw ss area sector)
    (hs : 0 < ss) (hkey : Keyed v burst cipher) (lba : UInt64) {frag : Bytes} (hl : frag.length = n * ss) :
    ∃ frag' burst' v', cryptFragment pipeline v burst lba frag ss = (frag', burst', v') ∧
      frag'.length = n * ss ∧ SamePath v v' ∧ Keyed v' burst' cipher ∧
      ∀ k, k < n → slice frag' (k * ss) ss =
        if v.offsetSector.toNat ≤ lba.toNat ∧ lba.toNat < v.offsetSector.toNat + v.dataSectors.toNat ∧
            lba.toNat + k < v.offsetSector.toNat + v.encryptedBoundary.toNat then
          sector (UInt64.ofNat (lba.toNat - v.offsetSector.toNat + k)) (slice frag (k * ss) ss)
        else slice frag (k * ss) ss := by
  rw [cryptFragment, cryptoRange_eq]
  by_cases hin : v.offsetSector.toNat ≤ lba.toNat ∧ lba.toNat < v.offsetSector.toNat + v.dataSectors.toNat ∧
      lba.toNat < v.offsetSector.toNat + v.encryptedBoundary.toNat
  · have hsub : (lba - v.offsetSector).toNat = lba.toNat - v.offsetSector.toNat :=
      UInt64.toNat_sub_of_le _ _ (UInt64.le_iff_toNat_le.mpr hin.1)
    rw [if_pos hin]
    obtain ⟨v', hget, hsame⟩ := hkey.getPipeline_eq
    simp only [hget, hp]
    refine ⟨_, _, _, rfl, ?_, hsame, hkey.frame hsame (.inr rfl), ?_⟩
    · rw [length_transformPrefix harea, hl]
    · intro k hk
      have hidx : UInt64.ofNat (lba.toNat - v.offsetSector.toNat + k) = lba - v.offsetSector + UInt64.ofNat k := by
        rw [UInt64.ofNat_add, ← hsub, UInt64.ofNat_toNat]
      rw [slice_transformPrefix hs harea hl hk, hidx, hsub]
      by_cases hb : lba.toNat + k < v.offsetSector.toNat + v.encryptedBoundary.toNat
      · rw [if_pos (by omega), if_pos ⟨hin.1, hin.2.1, hb⟩]
      · rw [if_neg (by omega), if_neg (by omega)]
  · rw [if_neg hin]
    refine ⟨_, _, _, rfl, hl, .refl v, hkey, ?_⟩
    intro k _
    rw [if_neg (by omega)]

/-- A fragment inside the data region is transformed sector by sector, below the boundary only. -/
theorem cryptFragment_spec (pipeline : VolumeCipher → UInt64 → UInt64 → Bytes → Nat → Bytes) {v : AttachedVolume σ}
    {burst : Option VolumeCipher} {cipher : VolumeCipher} {ss n : Nat} {area : Bytes → Nat → UInt64 → Bytes}
    {sector : UInt64 → Bytes → Bytes} (hp : pipeline cipher = transformPrefix area) (harea : AreaLaw ss area sector)
    (hs : 0 < ss) (hkey : Keyed v burst cipher) (lba : UInt64) {frag : Bytes} (hl : frag.length = n * ss)
    (hlo : v.offsetSector.toNat ≤ lba.toNat)
    (hle : v.encryptedBoundary.toNat ≤ v.dataSectors.toNat) :
    ∃ frag' burst' v', cryptFragment pipeline v burst lba frag ss = (frag', burst', v') ∧
      frag'.length = n * ss ∧ SamePath v v' ∧ Keyed v' burst' cipher ∧
      ∀ k, k < n → slice frag' (k * ss) ss =
        if lba.toNat + k < v.offsetSector.toNat + v.encryptedBoundary.toNat then
          sector (UInt64.ofNat (lba.toNat - v.offsetSector.toNat + k)) (slice frag (k * ss) ss)
        else slice frag (k * ss) ss := by
  obtain ⟨frag', burst', v', heq, hlen, hsame, hkey', hslice⟩ :=
    cryptFragment_sectors pipeline hp harea hs hkey lba hl
  refine ⟨frag', burst', v', heq, hlen, hsame, hkey', ?_⟩
  intro k hk
  rw [hslice k hk]
  by_cases hb : lba.toNat + k < v.offsetSector.toNat + v.encryptedBoundary.toNat
  · rw [if_pos hb, if_pos (by omega)]
  · rw [if_neg hb, if_neg (by omega)]

/-! ## What a request does -/

/-- The request asks for `n` whole sectors from `lba` on. -/
structure Irp.Covers (irp : Irp) (ss lba n : Nat) : Prop where
  offset : irp.byteOffset.toNat = lba * ss
  length : irp.length.toNat = n * ss
  buffer : irp.buffer.length = n * ss

theorem Irp.Covers.toNat_firstLba {irp : Irp} {v : AttachedVolume σ} {d : Device} {lba n : Nat}
    (h : irp.Covers d.ss lba n) (hss : v.sectorSize = d.sectorSize) (hs : 0 < d.ss) :
    (irp.byteOffset / v.sectorSize.toUInt64).toNat = lba := by
  have hsize : v.sectorSize.toNat = d.ss := congrArg UInt32.toNat hss
  rw [UInt64.toNat_div, UInt32.toNat_toUInt64, hsize, h.offset, Nat.mul_div_cancel _ hs]

section Requests

variable {v v' : AttachedVolume σ} {burst burst' : Option VolumeCipher} {cipher : VolumeCipher} {irp : Irp}
  {d d' : Device} {lba n : Nat} {c : Completion}

/-- A read of whole sectors. -/
theorem processRead_eq (burst : Option VolumeCipher) (hcov : irp.Covers d.ss lba n)
    (hss : v.sectorSize = d.sectorSize) (hs : 0 < d.ss) :
    processRead v burst irp d =
      if n = 0 then (irp.complete .success, burst, v)
      else if !irp.mapped || !irp.allocated then (irp.complete .unsuccessful, burst, v)
      else
        match readSectors d (irp.byteOffset / v.sectorSize.toUInt64) (n * d.ss) with
        | .error _ => (irp.complete .unsuccessful, burst, v)
        | .ok frag =>
          let (frag', burst', v') :=
            cryptFragment decryptRead v burst (irp.byteOffset / v.sectorSize.toUInt64) frag d.ss
          (⟨.success, n * d.ss, copyAt irp.buffer 0 frag'⟩, burst', v') := by
  have hsize : v.sectorSize.toNat = d.ss := congrArg UInt32.toNat hss
  unfold processRead
  simp only [hsize, hcov.length, Nat.mul_div_cancel _ hs]
  by_cases hn : n = 0
  · rw [if_pos (.inr (by rw [hn, Nat.zero_mul])), if_pos hn]
  · have hpos : 0 < n * d.ss := Nat.mul_pos (by omega) hs
    rw [if_neg (by omega), if_neg hn]

/-- A write of whole sectors. -/
theorem processWrite_eq (burst : Option VolumeCipher) (hcov : irp.Covers d.ss lba n)
    (hss : v.sectorSize = d.sectorSize) (hs : 0 < d.ss) :
    processWrite v burst irp d =
      if n = 0 then (irp.complete .success, burst, v, d)
      else if !irp.mapped || !irp.allocated then (irp.complete .unsuccessful, burst, v, d)
      else
        let (frag, burst', v') :=
          cryptFragment encryptWrite v burst (irp.byteOffset / v.sectorSize.toUInt64) irp.buffer d.ss
        match writeSectors d (irp.byteOffset / v.sectorSize.toUInt64) frag with
        | (.error _, d') => (irp.complete .unsuccessful, burst', v', d')
        | (.ok (), d') => (⟨.success, n * d.ss, irp.buffer⟩, burst', v', d') := by
  have hsize : v.sectorSize.toNat = d.ss := congrArg UInt32.toNat hss
  unfold processWrite
  simp only [hsize, hcov.length, Nat.mul_div_cancel _ hs]
  by_cases hn : n = 0
  · rw [if_pos (.inr (by rw [hn, Nat.zero_mul])), if_pos hn]
  · have hpos : 0 < n * d.ss := Nat.mul_pos (by omega) hs
    rw [if_neg (by omega), if_neg hn, if_neg hn, List.take_of_length_le (Nat.le_of_eq hcov.buffer)]

/-- A successful read returns the plain view of its sectors. -/
theorem processRead_spec (hcov : irp.Covers d.ss lba n) (hss : v.sectorSize = d.sectorSize) (hs : 0 < d.ss)
    (hc : LawfulCipher d.ss cipher) (hkey : Keyed v burst cipher) (hlo : v.offsetSector.toNat ≤ lba)
    (hle : v.encryptedBoundary.toNat ≤ v.dataSectors.toNat) (hr : processRead v burst irp d = (c, burst', v'))
    (hok : c.status = .success) :
    SamePath v v' ∧ Keyed v' burst' cipher ∧
      c.buffer.take c.information = (List.range n).flatMap fun k =>
        plainSector cipher v.offsetSector.toNat v.encryptedBoundary.toNat d (lba - v.offsetSector.toNat + k) := by
  have hfirst := hcov.toNat_firstLba hss hs
  rw [processRead_eq burst hcov hss hs] at hr
  by_cases hn : n = 0
  · subst hn
    rw [if_pos rfl] at hr
    obtain ⟨rfl, rfl, rfl⟩ := Prod.mk.inj hr |>.imp_right Prod.mk.inj
    exact ⟨.refl v, hkey, by simp [Irp.complete]⟩
  · rw [if_neg hn] at hr
    by_cases hmap : (!irp.mapped || !irp.allocated) = true
    · rw [if_pos hmap] at hr
      rw [← (Prod.mk.inj hr).1] at hok
      cases hok
    · rw [if_neg hmap] at hr
      cases hread : readSectors d (irp.byteOffset / v.sectorSize.toUInt64) (n * d.ss) with
      | error e =>
        rw [hread] at hr
        rw [← (Prod.mk.inj hr).1] at hok
        cases hok
      | ok frag =>
        obtain ⟨hreach, rfl⟩ := (readSectors_ok_iff hs).mp hread
        rw [hread] at hr
        rw [hfirst, load_eq_area] at hr
        obtain ⟨frag', burst₁, v₁, hfrag, hlen, hsame, hkey', hslice⟩ := cryptFragment_spec
          decryptRead rfl hc.decryptArea hs hkey (irp.byteOffset / v.sectorSize.toUInt64)
          (length_area d lba n) (by rw [hfirst]; exact hlo) hle
        simp only [hfrag] at hr
        obtain ⟨rfl, rfl, rfl⟩ := Prod.mk.inj hr |>.imp_right Prod.mk.inj
        refine ⟨hsame, hkey', ?_⟩
        have htake : (copyAt irp.buffer 0 frag').take (n * d.ss) = frag' := by
          rw [← slice_zero, slice_copyAt_same (Nat.zero_le _) hlen]
        change (copyAt irp.buffer 0 frag').take (n * d.ss) = _
        have hplain (k : Nat) : (plainSector cipher v.offsetSector.toNat v.encryptedBoundary.toNat d
            (lba - v.offsetSector.toNat + k)).length = d.ss := by
          rw [plainSector]
          split
          · exact hc.decryptArea.length_sector _ (length_sector ..)
          · exact length_sector ..
        rw [htake]
        refine eq_of_sectors hs hlen (slice_flatMap_range (fun k _ => hplain k) (k := 0) (by omega)).1 ?_
        intro k hk
        rw [(slice_flatMap_range (fun k _ => hplain k) hk).2, hslice k hk, slice_area d hk, hfirst, plainSector]
        have hat : v.offsetSector.toNat + (lba - v.offsetSector.toNat + k) = lba + k := by omega
        rw [hat]
        by_cases hb : lba + k < v.offsetSector.toNat + v.encryptedBoundary.toNat
        · rw [if_pos hb, if_pos (by omega)]
        · rw [if_neg hb, if_neg (by omega)]

/-- A successful write puts its buffer into the plain view of its sectors and changes no other sector. -/
theorem processWrite_spec (hcov : irp.Covers d.ss lba n) (hss : v.sectorSize = d.sectorSize) (hs : 0 < d.ss)
    (hc : LawfulCipher d.ss cipher) (hkey : Keyed v burst cipher) (hlo : v.offsetSector.toNat ≤ lba)
    (hle : v.encryptedBoundary.toNat ≤ v.dataSectors.toNat) (hw : processWrite v burst irp d = (c, burst', v', d'))
    (hok : c.status = .success) :
    SamePath v v' ∧ Keyed v' burst' cipher ∧ Frame (fun l => lba ≤ l ∧ l < lba + n) d d' ∧
      ∀ k, k < n → plainSector cipher v.offsetSector.toNat v.encryptedBoundary.toNat d'
        (lba - v.offsetSector.toNat + k) = slice irp.buffer (k * d.ss) d.ss := by
  have hfirst := hcov.toNat_firstLba hss hs
  rw [processWrite_eq burst hcov hss hs] at hw
  by_cases hn : n = 0
  · subst hn
    rw [if_pos rfl] at hw
    obtain ⟨-, rfl, rfl, rfl⟩ := Prod.mk.inj hw |>.imp_right Prod.mk.inj |>.imp_right (·.imp_right Prod.mk.inj)
    exact ⟨.refl v, hkey, .refl _ _, fun k hk => absurd hk (Nat.not_lt_zero k)⟩
  · rw [if_neg hn] at hw
    by_cases hmap : (!irp.mapped || !irp.allocated) = true
    · rw [if_pos hmap] at hw
      rw [← (Prod.mk.inj hw).1] at hok
      cases hok
    · rw [if_neg hmap] at hw
      obtain ⟨frag', burst₁, v₁, hfrag, hlen, hsame, hkey', hslice⟩ := cryptFragment_spec
        encryptWrite rfl hc.encryptArea hs hkey (irp.byteOffset / v.sectorSize.toUInt64)
        hcov.buffer (by rw [hfirst]; exact hlo) hle
      simp only [hfrag] at hw
      generalize hio : writeSectors d (irp.byteOffset / v.sectorSize.toUInt64) frag' = w at hw
      obtain ⟨r, d₁⟩ := w
      cases r with
      | error e =>
        rw [← (Prod.mk.inj hw).1] at hok
        cases hok
      | ok u =>
        obtain ⟨-, rfl, rfl, rfl⟩ := Prod.mk.inj hw |>.imp_right Prod.mk.inj |>.imp_right (·.imp_right Prod.mk.inj)
        have hframe := writeSectors_frame d (irp.byteOffset / v.sectorSize.toUInt64) hlen
        have hsector := sector_writeSectors hlen hio
        rw [hio] at hframe
        rw [hfirst] at hframe hsector
        refine ⟨hsame, hkey', hframe, ?_⟩
        intro k hk
        have hat : v.offsetSector.toNat + (lba - v.offsetSector.toNat + k) = lba + k := by omega
        have hbuf : (slice irp.buffer (k * d.ss) d.ss).length = d.ss := by
          apply length_slice_of_le
          rw [hcov.buffer, ← Nat.succ_mul]
          exact Nat.mul_le_mul_right _ hk
        rw [plainSector, hat, hsector, if_pos (show lba ≤ lba + k ∧ lba + k < lba + n by omega),
          Nat.add_sub_cancel_left, hslice k hk, hfirst]
        by_cases hb : lba + k < v.offsetSector.toNat + v.encryptedBoundary.toNat
        · rw [if_pos hb, if_pos (by omega)]
          exact hc.decrypt_encrypt _ _ hbuf
        · rw [if_neg hb, if_neg (by omega)]

/-- On readable sectors a read succeeds; where the range is not encrypted it returns the raw sectors. -/
theorem processRead_success (burst : Option VolumeCipher) (hcov : irp.Covers d.ss lba n)
    (hss : v.sectorSize = d.sectorSize) (hs : 0 < d.ss) (hmap : irp.mapped = true ∧ irp.allocated = true)
    (hreach : Reachable d d.readFault lba n) :
    (processRead v burst irp d).1.status = .success ∧
      (cryptoRange v (irp.byteOffset / v.sectorSize.toUInt64) = none →
        (processRead v burst irp d).1.buffer.take (processRead v burst irp d).1.information = d.area lba n) := by
  have hfirst := hcov.toNat_firstLba hss hs
  rw [processRead_eq burst hcov hss hs]
  by_cases hn : n = 0
  · subst hn
    rw [if_pos rfl]
    exact ⟨rfl, fun _ => rfl⟩
  · rw [if_neg hn, if_neg (by simp [hmap]), readSectors_of_reachable hs (by rw [hfirst]; exact hreach), hfirst]
    refine ⟨rfl, fun hnone => ?_⟩
    simp only [cryptFragment, hnone]
    rw [← slice_zero, slice_copyAt_same (Nat.zero_le _) (length_area d lba n)]

/-- On writable sectors a write succeeds. -/
theorem processWrite_success (hcov : irp.Covers d.ss lba n) (hss : v.sectorSize = d.sectorSize) (hs : 0 < d.ss)
    (hc : LawfulCipher d.ss cipher) (hkey : Keyed v burst cipher) (hlo : v.offsetSector.toNat ≤ lba)
    (hle : v.encryptedBoundary.toNat ≤ v.dataSectors.toNat) (hmap : irp.mapped = true ∧ irp.allocated = true)
    (hreach : Reachable d d.writeFault lba n) : (processWrite v burst irp d).1.status = .success := by
  have hfirst := hcov.toNat_firstLba hss hs
  rw [processWrite_eq burst hcov hss hs]
  by_cases hn : n = 0
  · rw [if_pos hn]
    rfl
  · obtain ⟨frag', burst₁, v₁, hfrag, hlen, -⟩ := cryptFragment_spec
      encryptWrite rfl hc.encryptArea hs hkey (irp.byteOffset / v.sectorSize.toUInt64)
      hcov.buffer (by rw [hfirst]; exact hlo) hle
    rw [if_neg hn, if_neg (by simp [hmap])]
    simp only [hfrag]
    rw [writeSectors_of_reachable hs hlen (by rw [hfirst]; exact hreach)]

end Requests

end Path

end DataPath
