import VolumeCrypt.FailClosed
import VolumeCrypt.Transparency

/-!
# Transparent encryption across boots

A machine alternates between the loader, which reads and writes through the Block IO hooks
at the boundary it found in the metadata, and the driver, which goes on from the boundary it
finds there and moves it. Power may go between any two operations, not inside one. The
plaintext that the one wrote the other reads, in every run of completed operations in which
the replicas can be read and the hook is installed at each boot.
-/
namespace BootCycles

open ByteString ByteMemory VckTypes SectorIo CipherTraits JvckLayout JvckStore JvckReplicas JvckRuns SweepEngine
  VolumeSweep DataPath Transparency LoaderHook
open FailClosed hiding firstSector
open JvckMetadata (Primitives)

/-! ## The loader -/

/-- What the firmware answers to the loader: whether the Block IO of the volume can be opened, and whether
`engine.install` can hook it. -/
structure HookAnswers where
  locate : VckResult Unit
  install : VckResult Unit

/-- The engine of `install_decrypt_hook`: open the metadata, take boundary and keys from it. -/
def decryptHookEngine (E : Env) (d : Device) : VckResult BlockIoHookEngine := do
  let store ← JvckMetadataStore.openStore E.primitives d E.vmk
  let sector ← store.loadOffset E.primitives d
  return ⟨⟨store.geometry.offsetSector, ⟨sector, store.geometry.dataSectors⟩⟩, E.supplierOf store.secrets⟩

/-- `install_decrypt_hook` of the sample. -/
def installDecryptHook (E : Env) (k : HookAnswers) (d : Device) : VckResult BlockIoHookEngine := do
  k.locate
  let engine ← decryptHookEngine E d
  k.install
  return engine

/-- Loader and driver open the volume alike. -/
theorem decryptHookEngine_of_onAttach {E : Env} {d : Device} {offsetSector : UInt64} {o : EncryptedOffset}
    {store : JvckMetadataStore} (h : onAttach E d = .ok (offsetSector, o, store)) :
    decryptHookEngine E d = .ok ⟨⟨offsetSector, o⟩, E.supplierOf store.secrets⟩ := by
  obtain ⟨hopen, rfl, sector, hload, rfl⟩ := onAttach_ok_iff.mp h
  rw [decryptHookEngine, hopen]
  change (store.loadOffset E.primitives d >>= _) = _
  rw [hload]
  rfl

/-! ## The machine -/

/-- Who serves the volume: the firmware behind the hook, or the driver. -/
inductive Phase where
  | loader (hook : Option BlockIoHookEngine) (calls : Nat)
  | driver (volume : AttachedVolume JvckMetadataStore) (burst : Option VolumeCipher)

structure Machine where
  device : Device
  phase : Phase
  replies : List Bytes

inductive Op where
  /-- Reset, from wherever the machine is; the loader runs. -/
  | powerOn (k : HookAnswers)
  | readBlocks (lba : UInt64) (buffer : Bytes)
  | writeBlocks (lba : UInt64) (buffer : Bytes)
  /-- The operating system starts and the driver mounts the volume. -/
  | mount (resume : Bool)
  | driver (op : Transparency.Op)

/-- A Block IO request for whole sectors inside the data region. -/
def InBlocks (g : Geometry) (lba : UInt64) (size : Nat) : Prop :=
  0 < size ∧ size % g.sectorSize.toNat = 0 ∧ g.offsetSector.toNat ≤ lba.toNat ∧
    lba.toNat + size / g.sectorSize.toNat ≤ g.offsetSector.toNat + g.dataSectors.toNat

instance (g : Geometry) (lba : UInt64) (size : Nat) : Decidable (InBlocks g lba size) :=
  inferInstanceAs (Decidable (_ ∧ _ ∧ _ ∧ _))

/-- `ReadBlocks` of the volume's protocol, hooked or not. -/
def callRead (F : Firmware) (hook : Option BlockIoHookEngine) (calls : Nat) (lba : UInt64) (buffer : Bytes)
    (d : Device) : EfiStatus × Option Bytes :=
  match hook with
  | none => F.readBlocks d lba buffer.length (some buffer)
  | some engine => hookedReadBlocks F (some ⟨some engine⟩) (some d.sectorSize) calls lba buffer.length (some buffer) d

def callWrite (F : Firmware) (hook : Option BlockIoHookEngine) (calls : Nat) (lba : UInt64) (buffer : Bytes)
    (d : Device) : EfiStatus × Device :=
  match hook with
  | none => F.writeBlocks d lba buffer.length (some buffer)
  | some engine => hookedWriteBlocks F (some ⟨some engine⟩) (some d.sectorSize) calls lba buffer.length (some buffer) d

/-- One operation, when it succeeds. A loader that cannot open the metadata or install the hook goes on without one. -/
def step (F : Firmware) (E : Env) (g : Geometry) (m : Machine) : Op → Option Machine
  | .powerOn k => some { m with phase := .loader (installDecryptHook E k m.device).toOption 0 }
  | .readBlocks lba buffer =>
    match m.phase with
    | .loader hook calls =>
      match callRead F hook calls lba buffer m.device with
      | (.success, some out) =>
        if InBlocks g lba buffer.length then
          some { m with phase := .loader hook (calls + 1), replies := m.replies ++ [out] }
        else none
      | _ => none
    | .driver _ _ => none
  | .writeBlocks lba buffer =>
    match m.phase with
    | .loader hook calls =>
      match callWrite F hook calls lba buffer m.device with
      | (.success, device) =>
        if InBlocks g lba buffer.length then some { m with device, phase := .loader hook (calls + 1) } else none
      | _ => none
    | .driver _ _ => none
  | .mount resume =>
    match m.phase with
    | .loader _ _ => (attach E resume m.device).toOption.map fun volume => { m with phase := .driver volume none }
    | .driver _ _ => none
  | .driver op =>
    match m.phase with
    | .loader _ _ => none
    | .driver volume burst =>
      (Transparency.step E g ⟨volume, m.device, burst, m.replies⟩ op).map fun s =>
        ⟨s.device, .driver s.volume s.burst, s.replies⟩

/-! ## The abstract volume -/

/-- Loader and driver read and write the same plaintext sectors. -/
def apply (g : Geometry) (p : PlainVolume) : Op → PlainVolume
  | .readBlocks lba buffer =>
    { p with replies := p.replies ++ [(List.range (buffer.length / g.sectorSize.toNat)).flatMap fun k =>
        p.plain (lba.toNat - g.offsetSector.toNat + k)] }
  | .writeBlocks lba buffer =>
    { p with plain := fun rel =>
        if lba.toNat - g.offsetSector.toNat ≤ rel ∧
            rel < lba.toNat - g.offsetSector.toNat + buffer.length / g.sectorSize.toNat then
          slice buffer ((rel - (lba.toNat - g.offsetSector.toNat)) * g.sectorSize.toNat) g.sectorSize.toNat
        else p.plain rel }
  | .driver op => p.apply g op
  | _ => p

/-- The firmware transfers what it is asked to and changes nothing else. -/
structure Exact (F : Firmware) : Prop extends F.Lawful where
  frame : ∀ {d d' lba n buffer}, 0 < d.ss → buffer.length = n * d.ss →
    F.writeBlocks d lba (n * d.ss) (some buffer) = (.success, d') →
      Frame (fun l => lba.toNat ≤ l ∧ l < lba.toNat + n) d d'

/-- The hook stands at the boundary of the metadata and holds the cipher of the volume. -/
structure Hooked (g : Geometry) (cipher : VolumeCipher) (v : AttachedVolume JvckMetadataStore)
    (h : BlockIoHookEngine) : Prop where
  offset : h.geometry.offsetSector = g.offsetSector
  boundary : h.geometry.encryptedOffset = ⟨v.encryptedBoundary, g.dataSectors⟩
  supplier : ∀ n, h.cipherSupplier.getCipher n = some cipher

/-- In the loader the volume is as the driver left it, or as it will find it. -/
def Carried (E : Env) (L : Layout) (g : Geometry) (cipher : VolumeCipher) (m : Machine) (p : PlainVolume) : Prop :=
  match m.phase with
  | .driver volume burst => Mounted E L g cipher ⟨volume, m.device, burst, m.replies⟩ p
  | .loader hook _ => ∃ volume engine, hook = some engine ∧ Hooked g cipher volume engine ∧
      Mounted E L g cipher ⟨volume, m.device, none, m.replies⟩ p

/-! ## Block IO behind the hook -/

section Hook

variable {F : Firmware} {E : Env} {L : Layout} {g : Geometry} {cipher : VolumeCipher}
  {v : AttachedVolume JvckMetadataStore} {engine : BlockIoHookEngine} {d d' : Device} {replies : List Bytes}
  {p : PlainVolume} {lba : UInt64} {buffer out : Bytes} {calls : Nat}

/-- A request inside the data region, in sectors of the device. -/
theorem InBlocks.sectors (h : Mounted E L g cipher ⟨v, d, none, replies⟩ p) (hin : InBlocks g lba buffer.length) :
    ∃ n, 0 < n ∧ buffer.length = n * d.ss ∧ buffer.length / g.sectorSize.toNat = n ∧
      g.offsetSector.toNat ≤ lba.toNat ∧ lba.toNat + n ≤ g.offsetSector.toNat + g.dataSectors.toNat := by
  have hss : g.sectorSize.toNat = d.ss := h.ss_eq
  obtain ⟨hpos, hmod, hlo, hhi⟩ := hin
  have hlen := (Nat.div_mul_cancel (Nat.dvd_of_mod_eq_zero hmod)).symm
  refine ⟨buffer.length / g.sectorSize.toNat, ?_, by rw [← hss]; exact hlen, rfl, hlo, hhi⟩
  rcases Nat.eq_zero_or_pos (buffer.length / g.sectorSize.toNat) with hz | hz
  · rw [hz] at hlen
    omega
  · exact hz

/-- The hook's decision for sector `k` of a request in the data region is the boundary. -/
theorem encryptedRel_of_hooked (hh : Hooked g cipher v engine) {n k : Nat}
    (hlo : g.offsetSector.toNat ≤ lba.toNat) (hk : k < n)
    (hhi : lba.toNat + n ≤ g.offsetSector.toNat + g.dataSectors.toNat) (hlt : lba.toNat + n < 2 ^ 64) :
    engine.geometry.encryptedRel lba k =
      if lba.toNat - g.offsetSector.toNat + k < v.encryptedBoundary.toNat then
        some (UInt64.ofNat (lba.toNat - g.offsetSector.toNat + k))
      else none := by
  rw [encryptedRel_eq _ (by omega), hh.offset, hh.boundary]
  simp only
  by_cases hlow : lba.toNat - g.offsetSector.toNat + k < v.encryptedBoundary.toNat
  · rw [if_pos hlow, if_pos ⟨by omega, by omega, by omega⟩, Nat.sub_add_comm hlo]
  · rw [if_neg hlow, if_neg (by omega)]

/-- What the firmware reads for the hook comes out as the plain view. -/
theorem callRead_plain (hF : F.Lawful) (hplace : InPlaceCipher cipher)
    (h : Mounted E L g cipher ⟨v, d, none, replies⟩ p) (hh : Hooked g cipher v engine)
    (hin : InBlocks g lba buffer.length)
    (hr : callRead F (some engine) calls lba buffer d = (.success, some out)) :
    out = (List.range (buffer.length / g.sectorSize.toNat)).flatMap fun k =>
      p.plain (lba.toNat - g.offsetSector.toNat + k) := by
  obtain ⟨n, hn, hlen, hdiv, hlo, hhi⟩ := hin.sectors h
  have hs : 0 < d.ss := h.ss_pos
  rw [callRead, hlen] at hr
  by_cases hok : (F.readBlocks d lba (n * d.ss) (some buffer)).1 = .success
  · obtain ⟨hend, hbytes⟩ := hF.read hs hlen (Prod.ext hok rfl)
    have hlt : lba.toNat + n < 2 ^ 64 := Nat.lt_of_le_of_lt hend d.totalSectors.toNat_lt
    rw [hookedReadBlocks_eq hs hn (length_area d lba.toNat n) (Prod.ext hok hbytes), hh.supplier] at hr
    obtain rfl := Option.some.inj (Prod.mk.inj hr).2
    have hplain (k : Nat) (hk : k < n) : (p.plain (lba.toNat - g.offsetSector.toNat + k)).length = d.ss := by
      rw [← h.plain_eq (by omega), plainSector]
      split
      · exact h.lawful.decryptArea.length_sector _ (length_sector ..)
      · exact length_sector ..
    rw [hdiv]
    refine eq_of_sectors hs ?_ (slice_flatMap_range hplain (k := 0) hn).1 ?_
    · rw [length_hookLoop hplace.length_decryptSector, length_area]
    · intro k hk
      rw [(slice_flatMap_range hplain hk).2, slice_hookLoop hplace.length_decryptSector lba hs (length_area d _ n) hk,
        encryptedRel_of_hooked hh hlo hk hhi hlt, slice_area d hk, ← h.plain_eq (by omega), plainSector]
      have hat : g.offsetSector.toNat + (lba.toNat - g.offsetSector.toNat + k) = lba.toNat + k := by omega
      by_cases hlow : lba.toNat - g.offsetSector.toNat + k < v.encryptedBoundary.toNat
      · rw [if_pos hlow, if_pos hlow, hat]
      · rw [if_neg hlow, if_neg hlow, hat]
  · rw [hookedReadBlocks] at hr
    simp only [if_pos hok] at hr
    exact absurd (Prod.mk.inj hr).1 hok

/-- What the hook lets through replaces the sectors of the plain view. -/
theorem callWrite_mounted (hF : Exact F) (hplace : InPlaceCipher cipher)
    (h : Mounted E L g cipher ⟨v, d, none, replies⟩ p) (hh : Hooked g cipher v engine)
    (hin : InBlocks g lba buffer.length) (hw : callWrite F (some engine) calls lba buffer d = (.success, d')) :
    Mounted E L g cipher ⟨v, d', none, replies⟩ (apply g p (.writeBlocks lba buffer)) := by
  obtain ⟨n, hn, hlen, hdiv, hlo, hhi⟩ := hin.sectors h
  have hs : 0 < d.ss := h.ss_pos
  have hss : g.sectorSize.toNat = d.ss := h.ss_eq
  rw [callWrite, hlen, hookedWriteBlocks_eq hs hn hlen, hh.supplier] at hw
  simp only at hw
  have hout : (hookLoop engine.geometry cipher.encryptSector lba d.ss buffer).length = n * d.ss :=
    (length_hookLoop hplace.length_encryptSector lba d.ss buffer).trans hlen
  rw [hout] at hw
  obtain ⟨hend, hsector⟩ := hF.write hs hout hw
  have hframe := hF.frame hs hout hw
  have hlt : lba.toNat + n < 2 ^ 64 := Nat.lt_of_le_of_lt hend d.totalSectors.toNat_lt
  refine h.request (.refl v) (.inl rfl) (hframe.mono ?_) h.replies ?_
  · rintro l ⟨h₁, h₂⟩
    obtain ⟨rel, rfl⟩ : ∃ rel, l = g.offsetSector.toNat + rel := ⟨l - g.offsetSector.toNat, by omega⟩
    exact h.inData_iff.mpr (by omega)
  · intro rel hrel
    simp only [apply, hdiv]
    rw [hss]
    by_cases hcov : lba.toNat - g.offsetSector.toNat ≤ rel ∧ rel < lba.toNat - g.offsetSector.toNat + n
    · obtain ⟨k, rfl⟩ : ∃ k, rel = lba.toNat - g.offsetSector.toNat + k :=
        ⟨rel - (lba.toNat - g.offsetSector.toNat), by omega⟩
      have hk : k < n := by omega
      have hat : g.offsetSector.toNat + (lba.toNat - g.offsetSector.toNat + k) = lba.toNat + k := by omega
      have hbuf : (slice buffer (k * d.ss) d.ss).length = d.ss := by
        apply length_slice_of_le
        rw [hlen, ← Nat.succ_mul]
        exact Nat.mul_le_mul_right _ hk
      rw [if_pos hcov, Nat.add_sub_cancel_left, plainSector, hat, hsector k hk,
        slice_hookLoop hplace.length_encryptSector lba hs hlen hk,
        encryptedRel_of_hooked hh hlo hk hhi hlt]
      by_cases hlow : lba.toNat - g.offsetSector.toNat + k < v.encryptedBoundary.toNat
      · rw [if_pos hlow, if_pos hlow]
        exact h.lawful.decrypt_encrypt _ _ hbuf
      · rw [if_neg hlow, if_neg hlow]
    · rw [if_neg hcov, plainSector_frame hframe (by omega)]
      exact h.plain_eq hrel

end Hook

/-! ## Boots -/

/-- Phase A meets a replica first, and every replica can be read. -/
def Opens (P : Primitives) (L : Layout) (d : Device) : Prop :=
  (0 < L.footers ∨ JvckMetadata.verifyCrc P (blockAt d (d.sectors - 1)).toList ≠ .ok ()) ∧
    ∃ reader, JvckMetadataReader.openReader P d = .ok reader ∧
      reader.lbas.all fun lba => (readBlock d reader.geometry.sectorSize lba).isOk

/-- What each boot and each attach of a run has to find; in the loader the hook has to go in, too. -/
def Bootable (P : Primitives) (L : Layout) (m : Machine) : Op → Prop
  | .powerOn k => k.locate = .ok () ∧ k.install = .ok () ∧ Opens P L m.device
  | .mount _ => Opens P L m.device
  | .driver (.reattach _) => Opens P L m.device
  | _ => True

section Boot

variable {F : Firmware} {E : Env} {L : Layout} {g : Geometry} {cipher : VolumeCipher} {s : Sys} {m m' : Machine}
  {p : PlainVolume}

/-- A mounted volume that opens: the attach that the driver would make. -/
theorem attach_of_opens (h : Mounted E L g cipher s p) (ho : Opens E.primitives L s.device) (resume : Bool) :
    ∃ volume, attach E resume s.device = .ok volume ∧
      Mounted E L g cipher { s with volume, burst := none } p ∧
      volume.encryptedBoundary = s.volume.encryptedBoundary := by
  have hc : LawfulCodec E.primitives s.volume.offsetStore.codec := by
    rw [h.codec]
    exact jvckCbcCodec_lawful _
  obtain ⟨hlast, reader, hopen, hall⟩ := ho
  obtain rfl := openReader_of_synced h.synced hc h.replicas hlast hopen
  have hread : ∀ i, i < L.count → s.device.readFault (L.metaLba i) = false :=
    fun i hi => readFault_of_readBlock (readerOf_on h.synced.layoutOf) hall hi
  obtain ⟨state, hattach⟩ := attach_of_synced h.synced h.codec h.vmk h.replicas hread hopen resume
  refine ⟨_, hattach, ?_, h.stored.trans h.boundary.1⟩
  have hre : Reopens E.primitives L s (.reattach resume) := hlast
  refine h.reattach hre ?_
  simp only [Transparency.step, hopen, hattach]
  exact if_pos hall

/-- The hook that the loader installs on a mounted volume. -/
theorem installDecryptHook_of_opens (h : Mounted E L g cipher s p) (ho : Opens E.primitives L s.device)
    {k : HookAnswers} (hlocate : k.locate = .ok ()) (hinstall : k.install = .ok ()) :
    ∃ engine, installDecryptHook E k s.device = .ok engine ∧ Hooked g cipher s.volume engine := by
  obtain ⟨volume, hattach, hmount, hboundary⟩ := attach_of_opens h ho false
  rw [attach] at hattach
  cases hon : onAttach E s.device with
  | error e =>
    rw [hon] at hattach
    cases hattach
  | ok r =>
    obtain ⟨offsetSector, o, store⟩ := r
    rw [hon] at hattach
    obtain rfl := Except.ok.inj hattach
    have hhook : installDecryptHook E k s.device = .ok ⟨⟨offsetSector, o⟩, E.supplierOf store.secrets⟩ := by
      rw [installDecryptHook, hlocate, decryptHookEngine_of_onAttach hon, hinstall]
      rfl
    refine ⟨_, hhook, hmount.config.1, ?_, ?_⟩
    · have hsector : o.sector = s.volume.encryptedBoundary := hboundary
      have htotal : o.totalSectors = g.dataSectors := hmount.config.2
      rw [← hsector, ← htotal]
    · obtain ⟨supplier, hsup, hall⟩ := hmount.keyed.supplier
      obtain rfl := Option.some.inj hsup
      exact hall

/-- Whoever serves the volume, it is mounted as the driver would have it. -/
theorem Carried.mounted (h : Carried E L g cipher m p) :
    ∃ volume, Mounted E L g cipher ⟨volume, m.device, none, m.replies⟩ p := by
  rw [Carried] at h
  split at h
  · rename_i volume burst hphase
    exact ⟨volume, h.request (.refl _) (.inl rfl) (.refl _ _) h.replies fun rel hrel => h.plain_eq hrel⟩
  · obtain ⟨volume, -, -, -, hmount⟩ := h
    exact ⟨volume, hmount⟩

theorem Carried.powerOn (h : Carried E L g cipher m p) {k : HookAnswers}
    (hb : Bootable E.primitives L m (.powerOn k)) (hs : step F E g m (.powerOn k) = some m') :
    Carried E L g cipher m' p := by
  obtain rfl := Option.some.inj hs
  obtain ⟨volume, hmount⟩ := h.mounted
  obtain ⟨hlocate, hgoes, hopens⟩ := hb
  obtain ⟨engine, hinstall, hhook⟩ := installDecryptHook_of_opens hmount hopens hlocate hgoes
  rw [Carried]
  exact ⟨volume, engine, by rw [show installDecryptHook E k m.device = .ok engine from hinstall]; rfl, hhook, hmount⟩

theorem Carried.mount (h : Carried E L g cipher m p) (ho : Opens E.primitives L m.device) {resume : Bool}
    (hs : step F E g m (.mount resume) = some m') : Carried E L g cipher m' p := by
  obtain ⟨volume, hmount⟩ := h.mounted
  obtain ⟨volume', hattach, hmount', -⟩ := attach_of_opens hmount ho resume
  rw [step] at hs
  split at hs
  · rw [show attach E resume m.device = .ok volume' from hattach] at hs
    obtain rfl := Option.some.inj hs
    exact hmount'
  · cases hs

theorem Carried.readBlocks (hF : F.Lawful) (hplace : InPlaceCipher cipher) (h : Carried E L g cipher m p)
    {lba : UInt64} {buffer : Bytes} (hs : step F E g m (.readBlocks lba buffer) = some m') :
    Carried E L g cipher m' (apply g p (.readBlocks lba buffer)) := by
  rw [Carried] at h
  rw [step] at hs
  split at hs
  · rename_i hook calls hphase
    rw [hphase] at h
    obtain ⟨volume, engine, rfl, hhook, hmount⟩ := h
    split at hs
    · rename_i out hr
      by_cases hin : InBlocks g lba buffer.length
      · rw [if_pos hin] at hs
        obtain rfl := Option.some.inj hs
        refine ⟨volume, engine, rfl, hhook, ?_⟩
        have hout := callRead_plain hF hplace hmount hhook hin hr
        refine hmount.request (.refl _) (.inl rfl) (.refl _ _) ?_ fun rel hrel => hmount.plain_eq hrel
        rw [hout]
        exact congrArg (· ++ _) hmount.replies
      · rw [if_neg hin] at hs
        cases hs
    · cases hs
  · cases hs

theorem Carried.writeBlocks (hF : Exact F) (hplace : InPlaceCipher cipher) (h : Carried E L g cipher m p)
    {lba : UInt64} {buffer : Bytes} (hs : step F E g m (.writeBlocks lba buffer) = some m') :
    Carried E L g cipher m' (apply g p (.writeBlocks lba buffer)) := by
  rw [Carried] at h
  rw [step] at hs
  split at hs
  · rename_i hook calls hphase
    rw [hphase] at h
    obtain ⟨volume, engine, rfl, hhook, hmount⟩ := h
    split at hs
    · rename_i device hw
      by_cases hin : InBlocks g lba buffer.length
      · rw [if_pos hin] at hs
        obtain rfl := Option.some.inj hs
        exact ⟨volume, engine, rfl, hhook, callWrite_mounted hF hplace hmount hhook hin hw⟩
      · rw [if_neg hin] at hs
        cases hs
    · cases hs
  · cases hs

theorem Carried.driver (h : Carried E L g cipher m p) {op : Transparency.Op}
    (hb : Bootable E.primitives L m (.driver op)) (hs : step F E g m (.driver op) = some m') :
    Carried E L g cipher m' (p.apply g op) := by
  rw [Carried] at h
  rw [step] at hs
  split at hs
  · cases hs
  · rename_i volume burst hphase
    rw [hphase] at h
    obtain ⟨s', hs', rfl⟩ := Option.map_eq_some_iff.mp hs
    refine step_mounted h ?_ hs'
    cases op with
    | reattach resume => exact hb.1
    | _ => exact trivial

theorem step_carried (hF : Exact F) (hplace : InPlaceCipher cipher) {op : Op} (h : Carried E L g cipher m p)
    (hb : Bootable E.primitives L m op) (hs : step F E g m op = some m') : Carried E L g cipher m' (apply g p op) := by
  cases op with
  | powerOn k => exact h.powerOn hb hs
  | readBlocks lba buffer => exact h.readBlocks hF.toLawful hplace hs
  | writeBlocks lba buffer => exact h.writeBlocks hF hplace hs
  | mount resume => exact h.mount hb hs
  | driver op => exact h.driver hb hs

/-- Over every run of boots, hooked Block IO, mounts, requests, sweeps and changes of direction in which every operation
is carried out and each boot finds its replicas and installs its hook, every read by loader or driver is answered with
the plaintext last written. -/
theorem boot_cycles_transparent (hF : Exact F) (hplace : InPlaceCipher cipher) (h : Carried E L g cipher m p)
    {ops : List Op} (hb : StepRun.Along (step F E g) (Bootable E.primitives L) m ops)
    (hrun : StepRun.run (step F E g) m ops = some m') :
    Carried E L g cipher m' (ops.foldl (apply g) p) ∧ m'.replies = (ops.foldl (apply g) p).replies := by
  have hfin := StepRun.run_simulates_along (R := Carried E L g cipher) (apply g) (step_carried hF hplace) h hb hrun
  obtain ⟨volume, hmount⟩ := hfin.mounted
  exact ⟨hfin, hmount.replies⟩

end Boot

/-! ## A write by the loader, read by the driver -/

section Sample

theorem diskFirmware_exact : Exact diskFirmware where
  toLawful := diskFirmware_lawful
  frame := by
    intro d d' lba n buffer hs hl hw
    simp only [diskFirmware, List.take_of_length_le (Nat.le_of_eq hl)] at hw
    by_cases hr : Reachable d d.writeFault lba.toNat n
    · have hframe := writeSectors_frame d lba hl
      rw [writeSectors_of_reachable hs hl hr] at hw hframe
      rw [← (Prod.mk.inj hw).2]
      exact hframe
    · rw [writeSectors_of_not_reachable hs hl hr] at hw
      cases (Prod.mk.inj hw).1

theorem flipCipher_inPlace : InPlaceCipher flipCipher :=
  ⟨fun _ _ => List.length_map _, fun _ _ => List.length_map _⟩

variable {E : Env} {L : Layout} {g : Geometry} {cipher : VolumeCipher} {s : Sys} {p : PlainVolume} {d : Device}

/-- On a healthy device every replica opens. -/
theorem opens_of_healthy (h : Mounted E L g cipher s p) (hd : Healthy s.device)
    (hlast : 0 < L.footers ∨ JvckMetadata.verifyCrc E.primitives (blockAt s.device (s.device.sectors - 1)).toList ≠
      .ok ()) : Opens E.primitives L s.device := by
  have hre : Reopens E.primitives L s (.reattach false) := hlast
  obtain ⟨s', hs'⟩ := h.reattach_succeeds hd hre
  refine ⟨hlast, ?_⟩
  simp only [Transparency.step] at hs'
  split at hs'
  · rename_i reader volume hopen hattach
    split at hs'
    · rename_i hall
      exact ⟨reader, hopen, hall⟩
    · cases hs'
  · cases hs'

/-- The disk serves a hooked write of sectors that exist. -/
theorem callWrite_succeeds (hplace : InPlaceCipher cipher) {v : AttachedVolume JvckMetadataStore}
    {engine : BlockIoHookEngine} (hh : Hooked g cipher v engine) (hd : Healthy d) (hs : 0 < d.ss) {lba : UInt64}
    {n : Nat} (hn : 0 < n) {buffer : Bytes} (hl : buffer.length = n * d.ss) (hend : lba.toNat + n ≤ d.sectors)
    (calls : Nat) :
    ∃ d', callWrite diskFirmware (some engine) calls lba buffer d = (.success, d') ∧
      Frame (fun l => lba.toNat ≤ l ∧ l < lba.toNat + n) d d' := by
  have hout : (hookLoop engine.geometry cipher.encryptSector lba d.ss buffer).length = n * d.ss :=
    (length_hookLoop hplace.length_encryptSector lba d.ss buffer).trans hl
  have hreach : Reachable d d.writeFault lba.toNat n := ⟨hend, fun i _ => hd.writeFault _⟩
  have hw : ∃ d', diskFirmware.writeBlocks d lba (n * d.ss)
      (some (hookLoop engine.geometry cipher.encryptSector lba d.ss buffer)) = (.success, d') := by
    simp only [diskFirmware, List.take_of_length_le (Nat.le_of_eq hout)]
    rw [writeSectors_of_reachable hs hout hreach]
    exact ⟨_, rfl⟩
  obtain ⟨d', hd'⟩ := hw
  refine ⟨d', ?_, diskFirmware_exact.frame hs hout hd'⟩
  rw [callWrite, hl, hookedWriteBlocks_eq hs hn hl, hh.supplier]
  simp only [hout]
  exact hd'

/-- Sector 0 of the data region on a fresh volume, written behind the hook. -/
def loaderSector : Bytes := List.replicate 512 7

def fresh (d : Device) : Machine := ⟨d, .driver headerVolume none, []⟩

/-- The loader writes a sector, the operating system starts and the driver reads it. -/
def bootAndRead : List Op :=
  [.powerOn ⟨.ok (), .ok ()⟩, .writeBlocks 256 loaderSector, .mount true, .driver (.read firstSector)]

theorem bootAndRead_runs (h : Fresh d) :
    ∃ m', StepRun.run (step diskFirmware headerEnv (oneHeader.geometry 512)) (fresh d) bootAndRead = some m' ∧
      StepRun.Along (step diskFirmware headerEnv (oneHeader.geometry 512)) (Bootable headerEnv.primitives oneHeader)
        (fresh d) bootAndRead := by
  have hlast : ¬ (fun l => (256 : UInt64).toNat ≤ l ∧ l < (256 : UInt64).toNat + 1) (d.sectors - 1) := by
    have hsectors : d.sectors = 1024 := h.frame.sectors
    rw [hsectors]
    decide
  have hopens : Opens headerEnv.primitives oneHeader d :=
    opens_of_healthy h.mounted h.healthy (h.reopens false)
  obtain ⟨engine, hinstall, hhook⟩ := installDecryptHook_of_opens h.mounted hopens (k := ⟨.ok (), .ok ()⟩) rfl rfl
  have hss : d.ss = 512 := congrArg UInt32.toNat h.frame.sectorSize
  have hin : InBlocks (oneHeader.geometry 512) 256 loaderSector.length := by
    rw [loaderSector, List.length_replicate]
    decide
  have hlen : loaderSector.length = 1 * d.ss := by
    rw [hss]
    exact List.length_replicate
  have hend : (256 : UInt64).toNat + 1 ≤ d.sectors := by
    rw [show d.sectors = 1024 from h.frame.sectors]
    decide
  obtain ⟨d', hwrite, hframe⟩ := callWrite_succeeds flipCipher_inPlace hhook h.healthy h.mounted.ss_pos Nat.one_pos hlen
    hend 0
  have h₁ : step diskFirmware headerEnv (oneHeader.geometry 512) (fresh d) (.powerOn ⟨.ok (), .ok ()⟩) =
      some ⟨d, .loader (some engine) 0, []⟩ := by
    rw [step, show installDecryptHook headerEnv ⟨.ok (), .ok ()⟩ (fresh d).device = .ok engine from hinstall]
    rfl
  have h₂ : step diskFirmware headerEnv (oneHeader.geometry 512) ⟨d, .loader (some engine) 0, []⟩
      (.writeBlocks 256 loaderSector) = some ⟨d', .loader (some engine) 1, []⟩ := by
    simp only [step, hwrite]
    rw [if_pos hin]
  have hmount := callWrite_mounted diskFirmware_exact flipCipher_inPlace h.mounted hhook hin hwrite
  have hopens' : Opens headerEnv.primitives oneHeader d' := by
    refine opens_of_healthy hmount (h.healthy.frame hframe) ?_
    have hsame := (h.reopens false)
    simp only [Reopens, headerSys] at hsame
    rw [hframe.sectors, blockAt_frame hframe hlast]
    exact hsame
  obtain ⟨volume, hattach, hmount', -⟩ := attach_of_opens hmount hopens' true
  have h₃ : step diskFirmware headerEnv (oneHeader.geometry 512) ⟨d', .loader (some engine) 1, []⟩ (.mount true) =
      some ⟨d', .driver volume none, []⟩ := by
    rw [step, show attach headerEnv true d' = .ok volume from hattach]
    rfl
  obtain ⟨s', hread⟩ := hmount'.read_succeeds (h.healthy.frame hframe) firstSector_inRegion ⟨rfl, rfl⟩
  have h₄ : step diskFirmware headerEnv (oneHeader.geometry 512) ⟨d', .driver volume none, []⟩
      (.driver (.read firstSector)) = some ⟨s'.device, .driver s'.volume s'.burst, s'.replies⟩ := by
    simp only [step]
    rw [show Transparency.step headerEnv (oneHeader.geometry 512) ⟨volume, d', none, []⟩ (.read firstSector) = some s'
      from hread]
    rfl
  refine ⟨_, StepRun.run_cons_eq_some.mpr ⟨_, h₁, StepRun.run_cons_eq_some.mpr ⟨_, h₂, StepRun.run_cons_eq_some.mpr
    ⟨_, h₃, StepRun.run_cons_eq_some.mpr ⟨_, h₄, rfl⟩⟩⟩⟩, ?_⟩
  exact .cons h₁ ⟨rfl, rfl, hopens⟩ (.cons h₂ trivial (.cons h₃ hopens' (.cons h₄ trivial trivial)))

theorem fresh_carried (h : Fresh d) :
    Carried headerEnv oneHeader (oneHeader.geometry 512) flipCipher (fresh d) (headerPlain d) := h.mounted

/-- On the abstract volume the driver's read is of the sector that the loader wrote. -/
theorem bootAndRead_replies (p : PlainVolume) :
    (bootAndRead.foldl (apply (oneHeader.geometry 512)) p).replies = p.replies ++ [loaderSector] := by
  have hread (q : PlainVolume) : apply (oneHeader.geometry 512) q (.driver (.read firstSector)) =
      q.apply (oneHeader.geometry 512) (.read firstSector) := rfl
  have hidle (q : PlainVolume) : apply (oneHeader.geometry 512) q (.powerOn ⟨.ok (), .ok ()⟩) = q ∧
      apply (oneHeader.geometry 512) q (.mount true) = q := ⟨rfl, rfl⟩
  have hlen : loaderSector.length = 512 := List.length_replicate
  have hall := slice_all loaderSector
  rw [hlen] at hall
  simp only [bootAndRead, List.foldl_cons, List.foldl_nil, (hidle _).1, (hidle _).2, hread, firstSector_reply]
  simp only [apply]
  rw [if_pos (by rw [hlen]; decide)]
  exact congrArg (fun b => p.replies ++ [b]) hall

/-- The driver reads what the loader wrote. -/
theorem boot_cycles_transparent_bootAndRead :
    ∃ m', StepRun.run (step diskFirmware headerEnv (oneHeader.geometry 512)) (fresh headerDevice) bootAndRead =
        some m' ∧ m'.replies = [loaderSector] := by
  have h := headerDevice_fresh
  generalize headerDevice = d at h
  obtain ⟨m', hrun, hb⟩ := bootAndRead_runs h
  refine ⟨m', hrun, ?_⟩
  rw [(boot_cycles_transparent diskFirmware_exact flipCipher_inPlace (fresh_carried h) hb hrun).2,
    bootAndRead_replies]
  rfl

end Sample

end BootCycles
