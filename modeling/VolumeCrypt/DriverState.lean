import VolumeCrypt.VolumeSweep
import Mathlib.Logic.Function.Basic

/-!
# The driver's state

`VolumeAttachRegistry` of `lib/windrv/src/registry.rs` together with the filter devices
and their extensions (`lib/windrv/src/device.rs`, `lib/windrv/src/filter/manager.rs`). Volumes
are shared, so the registry and the extensions hold their numbers; a filter device that
has been deleted no longer exists, and its number is not given out again. The code does not
ask whether a filter still exists: an access to the extension of one that does not is a fault,
and the state keeps the list of them.
-/
namespace DriverState

open ByteString VckTypes SectorIo SweepEngine VolumeSweep

abbrev VolId := Nat

abbrev FilterId := Nat

abbrev DeviceId := Nat

inductive AttachSource where
  | handover
  | ioctl
  deriving DecidableEq, Repr

/-- The offset store of a volume: that of the provider, or `DummyOffsetStore`. -/
inductive OffsetStore (σ : Type) where
  | dummy (totalSectors : UInt64)
  | provided (store : σ)

/-- The dummy answers with offset 0 and forgets what it is told. -/
def offsetStore {σ : Type} (S : EncryptedOffsetStore σ) : EncryptedOffsetStore (OffsetStore σ) where
  load
    | .dummy totalSectors, _ => .ok ⟨0, totalSectors⟩
    | .provided st, d => S.load st d
  store
    | .dummy totalSectors, d, _ => (.ok (), .dummy totalSectors, d)
    | .provided st, d, o => let (r, st, d) := S.store st d o; (r, .provided st, d)
  flush
    | .dummy totalSectors, d => (.ok (), .dummy totalSectors, d)
    | .provided st, d => let (r, st, d) := S.flush st d; (r, .provided st, d)
  loadState
    | .dummy _, _ => .ok .encrypt
    | .provided st, d => S.loadState st d
  storeState
    | .dummy totalSectors, d, _ => (.ok (), .dummy totalSectors, d)
    | .provided st, d, x => let (r, st, d) := S.storeState st d x; (r, .provided st, d)

/-- An `AttachedVolume` with the fields that the control path reads. -/
structure Volume (σ : Type) extends AttachedVolume (OffsetStore σ) where
  volumePath : String
  attachSource : AttachSource
  filterDevice : Option FilterId

namespace Volume

variable {σ : Type}

def isOsVolume (v : Volume σ) : Bool := v.attachSource = .handover

def hasEncryptedData (v : Volume σ) : Bool := 0 < v.encryptedBoundary

def hasCipher (v : Volume σ) : Bool := v.toAttachedVolume.cipherSupplier.isSome

end Volume

/-- The extension of a filter device; `vthread` is the current volume of its thread. -/
structure DeviceExtension where
  lowerDevice : DeviceId
  volume : Option VolId
  vthread : Option VolId
  deriving DecidableEq, Repr

structure PdoFilterEntry where
  pdo : DeviceId
  filterDo : FilterId
  lowerDo : DeviceId
  pdoName : String
  deriving DecidableEq, Repr

structure State (σ : Type) where
  entries : Std.ExtTreeMap String VolId
  volumes : VolId → Option (Volume σ)
  nextVolume : VolId
  filters : FilterId → Option DeviceExtension
  nextFilter : FilterId
  pdoFilters : List PdoFilterEntry
  driverObject : Bool
  handover : Option (Fixed 16)
  /-- The deleted filters whose extension has been accessed. What that does to the memory is not modelled. -/
  faults : List FilterId
  /-- Volumes that do not exist yet are not in memory. -/
  allocated : ∀ id, nextVolume ≤ id → volumes id = none
  /-- The registry holds its volumes under their own path. -/
  named : ∀ {p : String} {id : VolId}, entries[p]? = some id → ∃ v, volumes id = some v ∧ v.volumePath = p
  /-- Filters that do not exist yet are not in memory. -/
  created : ∀ f, nextFilter ≤ f → filters f = none

/-- The state after `DriverEntry`. -/
def State.loaded (σ : Type) (handover : Option (Fixed 16)) : State σ where
  entries := ∅
  volumes := fun _ => none
  nextVolume := 0
  filters := fun _ => none
  nextFilter := 0
  pdoFilters := []
  driverObject := true
  handover := handover
  faults := []
  allocated := fun _ _ => rfl
  named := fun h => by simp at h
  created := fun _ _ => rfl

namespace State

variable {σ : Type}

/-! ## The registry -/

def get (s : State σ) (volumePath : String) : Option (VolId × Volume σ) :=
  (s.entries[volumePath]?).bind fun id => (s.volumes id).map fun v => (id, v)

/-- `Arc::new` and `insert`. -/
def insert (s : State σ) (v : Volume σ) : VolId × State σ :=
  (s.nextVolume,
    { s with
      entries := s.entries.insert v.volumePath s.nextVolume
      volumes := Function.update s.volumes s.nextVolume (some v)
      nextVolume := s.nextVolume + 1
      allocated := fun id hid => by
        have hlt : s.nextVolume < id := hid
        rw [Function.update_of_ne hlt.ne', s.allocated id hlt.le]
      named := fun {p id} h => by
        rw [Std.ExtTreeMap.getElem?_insert] at h
        split at h
        · rename_i hp
          obtain rfl := Option.some.inj h
          exact ⟨v, Function.update_self .., Std.LawfulEqCmp.eq_of_compare hp⟩
        · obtain ⟨w, hw, hpath⟩ := s.named h
          have hne : id ≠ s.nextVolume := by
            rintro rfl
            rw [s.allocated _ le_rfl] at hw
            cases hw
          exact ⟨w, by rw [Function.update_of_ne hne, hw], hpath⟩ })

def erase (s : State σ) (volumePath : String) : State σ :=
  { s with
    entries := s.entries.erase volumePath
    named := fun h => by
      rw [Std.ExtTreeMap.getElem?_erase] at h
      split at h
      · cases h
      · exact s.named h }

def remove (s : State σ) (volumePath : String) : Option (VolId × Volume σ) × State σ :=
  (s.get volumePath, s.erase volumePath)

/-- All volumes of the registry, by path. -/
def all (s : State σ) : List (VolId × Volume σ) := s.entries.toList.filterMap fun e => s.get e.1

/-- A change to a volume that keeps its path. -/
def modifyVolume (s : State σ) (id : VolId) (g : Volume σ → Volume σ) (hg : ∀ v, (g v).volumePath = v.volumePath) :
    State σ :=
  { s with
    volumes := Function.update s.volumes id ((s.volumes id).map g)
    allocated := fun i hi => by
      by_cases h : i = id
      · rw [h] at hi ⊢
        rw [Function.update_self, s.allocated id hi, Option.map_none]
      · rw [Function.update_of_ne h, s.allocated i hi]
    named := fun {p i} h => by
      obtain ⟨v, hv, hp⟩ := s.named h
      by_cases hi : i = id
      · rw [hi] at hv ⊢
        exact ⟨g v, by rw [Function.update_self, hv, Option.map_some], (hg v).trans hp⟩
      · exact ⟨v, by rw [Function.update_of_ne hi, hv], hp⟩ }

/-- `filter_device.swap(null)`. -/
def swapFilterDevice (s : State σ) (id : VolId) : Option FilterId × State σ :=
  ((s.volumes id).bind (·.filterDevice), s.modifyVolume id (fun v => { v with filterDevice := none }) fun _ => rfl)

/-- A change to the engine, the store or the cached boundary of a volume. -/
def modifyAttached (s : State σ) (id : VolId) (g : AttachedVolume (OffsetStore σ) → AttachedVolume (OffsetStore σ)) :
    State σ :=
  s.modifyVolume id (fun v => { v with toAttachedVolume := g v.toAttachedVolume }) fun _ => rfl

def addPdoFilter (s : State σ) (e : PdoFilterEntry) : State σ := { s with pdoFilters := s.pdoFilters ++ [e] }

def pdoNameForFilter (s : State σ) (f : FilterId) : Option String :=
  (s.pdoFilters.find? fun e => e.filterDo = f ∧ e.pdoName ≠ "").map (·.pdoName)

def findPdoFilter (s : State σ) (dev : DeviceId) : Option (FilterId × DeviceId) :=
  (s.pdoFilters.find? fun e => e.pdo = dev ∨ e.lowerDo = dev).map fun e => (e.filterDo, e.lowerDo)

/-- `trim_end_matches('\\').to_ascii_lowercase()`. -/
def normalize (name : String) : String :=
  String.ofList ((name.toList.reverse.dropWhile (· = '\\')).reverse.map Char.toLower)

def findPdoFilterByName (s : State σ) (ntPath : String) : Option (FilterId × DeviceId) :=
  (s.pdoFilters.find? fun e => normalize e.pdoName = normalize ntPath).map fun e => (e.filterDo, e.lowerDo)

/-! ## Filter devices -/

def setFilter (s : State σ) (f : FilterId) (x : Option DeviceExtension) (hx : s.filters f = none → x = none) :
    State σ :=
  { s with
    filters := Function.update s.filters f x
    created := fun g hg => by
      by_cases h : g = f
      · rw [h] at hg ⊢
        rw [Function.update_self, hx (s.created f hg)]
      · rw [Function.update_of_ne h, s.created g hg] }

/-- A new filter above `lower`, without a volume. -/
def createFilter (s : State σ) (lower : DeviceId) : FilterId × State σ :=
  (s.nextFilter,
    { s with
      filters := Function.update s.filters s.nextFilter (some ⟨lower, none, none⟩)
      nextFilter := s.nextFilter + 1
      created := fun f hf => by
        have hlt : s.nextFilter < f := hf
        rw [Function.update_of_ne hlt.ne', s.created f hlt.le] })

/-- Following the pointer to the extension of a filter. -/
def access (s : State σ) (f : FilterId) : State σ :=
  { s with faults := if (s.filters f).isNone then s.faults ++ [f] else s.faults }

/-- A change to the extension of a filter. -/
def modifyFilter (s : State σ) (f : FilterId) (g : DeviceExtension → DeviceExtension) : State σ :=
  (s.access f).setFilter f ((s.filters f).map g) fun h => Option.map_eq_none_iff.mpr h

/-- `volume_thread::bind`: the current volume of the thread afterwards. -/
def bindThread (vthread : Option VolId) (id : VolId) (cipher : Bool) : Option VolId :=
  match vthread with
  | some _ => some id
  | none => if cipher then some id else none

def filterBindVolume (s : State σ) (f : FilterId) (id : VolId) : State σ :=
  s.modifyFilter f fun ext =>
    { ext with volume := some id, vthread := bindThread ext.vthread id ((s.volumes id).any (·.hasCipher)) }

/-- Besides dropping its reference to the old volume this is `filter_bind_volume`. -/
def filterRebindVolume (s : State σ) (f : FilterId) (id : VolId) : State σ := s.filterBindVolume f id

def unbindFilter (s : State σ) (f : FilterId) : State σ :=
  s.modifyFilter f fun ext => { ext with volume := none, vthread := none }

/-- Stops the thread, releases the volume and deletes the device. -/
def detachFilter (s : State σ) (f : FilterId) : State σ := (s.access f).setFilter f none fun _ => rfl

end State

/-! ## What the operations do -/

section Lemmas

variable {σ : Type} {s : State σ} {p : String} {id : VolId} {v : Volume σ} {f : FilterId}

theorem get_eq_some_iff : s.get p = some (id, v) ↔ s.entries[p]? = some id ∧ s.volumes id = some v := by
  simp only [State.get, Option.bind_eq_some_iff, Option.map_eq_some_iff, Prod.mk.injEq]
  constructor
  · rintro ⟨i, hi, w, hw, rfl, rfl⟩
    exact ⟨hi, hw⟩
  · rintro ⟨hi, hv⟩
    exact ⟨id, hi, v, hv, rfl, rfl⟩

theorem get_eq_none_iff : s.get p = none ↔ s.entries[p]? = none := by
  constructor
  · intro h
    cases he : s.entries[p]? with
    | none => rfl
    | some id =>
      obtain ⟨v, hv, -⟩ := s.named he
      rw [get_eq_some_iff.mpr ⟨he, hv⟩] at h
      cases h
  · intro h
    rw [State.get, h, Option.bind_none]

/-- What is found under a path carries it. -/
theorem volumePath_of_get (h : s.get p = some (id, v)) : v.volumePath = p := by
  obtain ⟨he, hv⟩ := get_eq_some_iff.mp h
  obtain ⟨w, hw, hpath⟩ := s.named he
  rw [hv] at hw
  rw [Option.some.inj hw, hpath]

/-- A volume is in the registry under one path. -/
theorem entry_unique {q : String} (hp : s.entries[p]? = some id) (hq : s.entries[q]? = some id) : p = q := by
  obtain ⟨v, hv, hpath⟩ := s.named hp
  rw [← hpath]
  exact volumePath_of_get (get_eq_some_iff.mpr ⟨hq, hv⟩)

@[simp] theorem insert_fst : (s.insert v).1 = s.nextVolume := rfl

@[simp] theorem insert_volumes_self : (s.insert v).2.volumes s.nextVolume = some v := Function.update_self ..

theorem insert_volumes_of_lt (h : id < s.nextVolume) : (s.insert v).2.volumes id = s.volumes id :=
  Function.update_of_ne h.ne ..

theorem insert_entry (q : String) :
    (s.insert v).2.entries[q]? = if v.volumePath = q then some s.nextVolume else s.entries[q]? := by
  simp only [State.insert, Std.ExtTreeMap.getElem?_insert, Std.LawfulEqCmp.compare_eq_iff_eq]

theorem erase_entry (q : String) : (s.erase p).entries[q]? = if p = q then none else s.entries[q]? := by
  simp only [State.erase, Std.ExtTreeMap.getElem?_erase, Std.LawfulEqCmp.compare_eq_iff_eq]

/-- Removing what is not there changes nothing. -/
theorem erase_of_get_eq_none (h : s.get p = none) : s.erase p = s := by
  have he : s.entries.erase p = s.entries := by
    apply Std.ExtTreeMap.ext_getElem?
    intro q
    change (s.erase p).entries[q]? = s.entries[q]?
    rw [erase_entry]
    by_cases hpq : p = q
    · rw [if_pos hpq, ← hpq, get_eq_none_iff.mp h]
    · rw [if_neg hpq]
  cases s
  simp only [State.erase, State.mk.injEq, and_true] at he ⊢
  exact he

@[simp] theorem erase_volumes : (s.erase p).volumes = s.volumes := rfl

@[simp] theorem erase_filters : (s.erase p).filters = s.filters := rfl

@[simp] theorem erase_faults : (s.erase p).faults = s.faults := rfl

theorem swapFilterDevice_fst (h : s.volumes id = some v) : (s.swapFilterDevice id).1 = v.filterDevice := by
  rw [State.swapFilterDevice, h, Option.bind_some]

@[simp] theorem swapFilterDevice_entries : (s.swapFilterDevice id).2.entries = s.entries := rfl

@[simp] theorem swapFilterDevice_filters : (s.swapFilterDevice id).2.filters = s.filters := rfl

@[simp] theorem createFilter_fst (lower : DeviceId) : (s.createFilter lower).1 = s.nextFilter := rfl

theorem createFilter_filters (lower : DeviceId) :
    (s.createFilter lower).2.filters = Function.update s.filters s.nextFilter (some ⟨lower, none, none⟩) := rfl

@[simp] theorem filterBindVolume_entries : (s.filterBindVolume f id).entries = s.entries := rfl

/-- Binding changes the extension of one filter. -/
theorem filterBindVolume_filters (s : State σ) (f : FilterId) (id : VolId) :
    ∃ g : DeviceExtension → DeviceExtension, (∀ ext, (g ext).volume = some id) ∧
      (s.filterBindVolume f id).filters = Function.update s.filters f ((s.filters f).map g) :=
  ⟨_, fun _ => rfl, rfl⟩

theorem unbindFilter_filters : (s.unbindFilter f).filters =
    Function.update s.filters f ((s.filters f).map fun ext => { ext with volume := none, vthread := none }) := rfl

@[simp] theorem detachFilter_entries : (s.detachFilter f).entries = s.entries := rfl

@[simp] theorem detachFilter_volumes : (s.detachFilter f).volumes = s.volumes := rfl

theorem detachFilter_filters : (s.detachFilter f).filters = Function.update s.filters f none := rfl

theorem access_faults (s : State σ) (f : FilterId) :
    (s.access f).faults = if (s.filters f).isNone then s.faults ++ [f] else s.faults := rfl

@[simp] theorem filterBindVolume_faults : (s.filterBindVolume f id).faults = (s.access f).faults := rfl

@[simp] theorem detachFilter_faults : (s.detachFilter f).faults = (s.access f).faults := rfl

/-- A path that was free is free again after an insertion and a removal. -/
theorem erase_insert_entries (h : s.entries[v.volumePath]? = none) :
    ((s.insert v).2.erase v.volumePath).entries = s.entries := by
  apply Std.ExtTreeMap.ext_getElem?
  intro q
  rw [erase_entry, insert_entry]
  by_cases hp : v.volumePath = q
  · rw [if_pos hp, ← hp, h]
  · rw [if_neg hp, if_neg hp]

end Lemmas

end DriverState
