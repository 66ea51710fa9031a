import VolumeCrypt.Dispatch
import VolumeCrypt.StepRun

/-!
# The PDO map over runs of requests

`add_device` records every filter it attaches in `VolumeAttachRegistry.pdo_filters`, and
nothing takes an entry out again. Filters are deleted by `detach_filter`, which does not
look at the map. Over any sequence of calls the map names live filters exactly as long
as no call deletes a filter that `add_device` recorded.
-/
namespace PdoMap

open ByteString VckTypes DriverState Dispatch

/-- One call into the driver, with what the kernel answers to it. -/
inductive Call (σ : Type) where
  | addDevice (k : AddDeviceAnswers)
  | request (r : Request σ)
  | detachAll (k : String → DetachAnswers)

section Map

variable {σ : Type}

def Call.apply (s : State σ) : Call σ → State σ
  | .addDevice k => Dispatch.addDevice k s
  | .request r => (r.handle s).2
  | .detachAll k => (handleDetachAllVolumes k s).2

def step (s : State σ) (c : Call σ) : Option (State σ) := some (c.apply s)

/-- The filter exists. -/
def Alive (s : State σ) (f : FilterId) : Prop := s.filters f ≠ none

/-- Every entry of the PDO map names a filter that has not been deleted. -/
def PdoLive (s : State σ) : Prop := ∀ e ∈ s.pdoFilters, Alive s e.filterDo

/-- The map names live filters only, and so do the lookups that PREPARE and the status query make in it. -/
structure MapLive (s : State σ) : Prop where
  entries : PdoLive s
  lookups : ∀ {ntPath : String} {dev lower : DeviceId} {f : FilterId},
    s.findPdoFilterByName ntPath = some (f, lower) ∨ s.findPdoFilter dev = some (f, lower) → Alive s f

/-- The filter was recorded by `add_device`. -/
def Recorded (s : State σ) (f : FilterId) : Prop := ∃ e ∈ s.pdoFilters, e.filterDo = f

/-- A PREPARE that deletes the filter it found: a key is given and `on_attach` fails. -/
def PrepareDeletes (k : PrepareAnswers σ) (input : VckResult JvckVolumePrepareReq) (s : State σ) (f : FilterId) :
    Prop :=
  ∃ req lower, input = .ok req ∧ s.entries[req.volumePath]? = none ∧ s.driverObject = true ∧
    findFilterForVolume k.find req.ntPath s = some (f, lower) ∧ AddDeviceReaches k req ∧ ∃ e, k.onAttach = .error e

/-- A data volume of the registry refers to the filter. -/
def DataFilter (s : State σ) (f : FilterId) : Prop :=
  ∃ p id v, s.get p = some (id, v) ∧ v.isOsVolume = false ∧ v.filterDevice = some f

/-- The call deletes no filter that `add_device` recorded. -/
def Spares (s : State σ) : Call σ → Prop
  | .request (.prepare k input) => ∀ f, PrepareDeletes k input s f → ¬ Recorded s f
  | .detachAll _ => ∀ f, DataFilter s f → ¬ Recorded s f
  | _ => True

variable {s : State σ} {f g : FilterId} {id : VolId} {v : Volume σ}

/-! ## Which filters a call deletes -/

theorem alive_bind : Alive (s.filterBindVolume f id) g ↔ Alive s g := by
  obtain ⟨h, -, hh⟩ := filterBindVolume_filters s f id
  rw [Alive, Alive, hh]
  by_cases hg : g = f
  · simp [hg]
  · rw [Function.update_of_ne hg]

theorem alive_unbind : Alive (s.unbindFilter f) g ↔ Alive s g := by
  rw [Alive, Alive, unbindFilter_filters]
  by_cases hg : g = f
  · simp [hg]
  · rw [Function.update_of_ne hg]

theorem alive_detach : Alive (s.detachFilter f) g ↔ Alive s g ∧ g ≠ f := by
  rw [Alive, Alive, detachFilter_filters]
  by_cases hg : g = f
  · simp [hg]
  · simp [hg]

theorem alive_create (lower : DeviceId) : Alive (s.createFilter lower).2 g ↔ Alive s g ∨ g = s.nextFilter := by
  rw [Alive, Alive, createFilter_filters]
  by_cases hg : g = s.nextFilter
  · simp [hg]
  · simp [hg]

theorem Alive.ne_nextFilter (h : Alive s g) : g ≠ s.nextFilter := by
  rintro rfl
  exact h (s.created _ le_rfl)

theorem alive_bindProvisional : Alive (bindProvisional v f s) g ↔ Alive s g := alive_bind

/-- Carrying out a settlement deletes the filter exactly when it undoes. -/
theorem alive_settle (req : JvckVolumePrepareReq) (keep : JvckVolumePrepareResp) (st : Settlement σ) :
    Alive (settle req f keep st s).2 g ↔ Alive s g ∧ ((∃ e, st = .fail e true) → g ≠ f) := by
  cases st with
  | keep => simp [settle]
  | complete o => exact alive_bind.trans (by simp; rfl)
  | fail e undo =>
    cases undo with
    | true => exact alive_detach.trans (by simp; intro; rfl)
    | false => simp [settle]

theorem fullAttach_undoes_iff (onAttach : VckResult (VolumeSweep.IoConfig × σ)) (sectorSize : UInt32) :
    (∃ e, fullAttach onAttach sectorSize (.ok ()) = .fail e true) ↔ ∃ e, onAttach = .error e := by
  cases onAttach with
  | error e => simp [fullAttach]
  | ok x =>
    obtain ⟨config, st⟩ := x
    cases hg : geometry config <;> simp [fullAttach, hg]

/-- On the AddDevice path only the filter that was found can go. -/
theorem alive_addDevicePath {k : PrepareAnswers σ} {req : JvckVolumePrepareReq} :
    Alive (handleJvckPrepareAddDevicePath k req f s).2 g ↔
      Alive s g ∧ (AddDeviceReaches k req ∧ (∃ e, k.onAttach = .error e) → g ≠ f) := by
  unfold handleJvckPrepareAddDevicePath AddDeviceReaches
  cases hq : k.query with
  | error e => simp
  | ok geo =>
    obtain ⟨sectorSize, totalSectors⟩ := geo
    simp only [PrepareLayout.addDeviceLayout]
    have hwrite := writeBeforeBind_ok_iff k req sectorSize totalSectors
    cases hw : writeBeforeBind k req (PrepareLayout.replicaLayout sectorSize totalSectors req.options) with
    | error e =>
      have hnot : ¬ BlockWritten k req sectorSize totalSectors := fun hb => by
        rw [hwrite.mpr hb] at hw
        cases hw
      simp [hnot]
    | ok u =>
      have hblock : BlockWritten k req sectorSize totalSectors := hwrite.mp hw
      simp only
      rw [alive_settle, alive_bindProvisional]
      by_cases hvmk : req.vmk = []
      · simp [hvmk]
      · rw [if_neg hvmk, fullAttach_undoes_iff]
        simp [hvmk, hblock]

/-- The fallback path deletes no filter but its own. -/
theorem alive_fallback {k : PrepareAnswers σ} {req : JvckVolumePrepareReq} (h : Alive s g) :
    Alive (handleJvckPrepareFallback k req s).2 g := by
  unfold handleJvckPrepareFallback
  simp only
  split
  · exact h
  split
  · exact h
  · rw [alive_settle, alive_bindProvisional, alive_create]
    exact ⟨.inl h, fun _ => h.ne_nextFilter⟩

theorem alive_prepare {k : PrepareAnswers σ} {input : VckResult JvckVolumePrepareReq} (h : Alive s g) :
    Alive (handleJvckPrepare k input s).2 g ↔ ¬ PrepareDeletes k input s g := by
  unfold handleJvckPrepare PrepareDeletes
  cases input with
  | error e => simpa using h
  | ok req =>
    simp only [Except.ok.injEq, exists_and_left, exists_eq_left']
    cases he : s.entries[req.volumePath]? with
    | some id =>
      obtain ⟨v, hv, -⟩ := s.named he
      simpa [get_eq_some_iff.mpr ⟨he, hv⟩] using h
    | none =>
      rw [get_eq_none_iff.mpr he]
      cases hd : s.driverObject with
      | false => simpa using h
      | true =>
        cases hf : findFilterForVolume k.find req.ntPath s with
        | none => simpa using alive_fallback h
        | some x =>
          obtain ⟨f, lower⟩ := x
          simp only [Option.isSome_none, Bool.false_eq_true, if_false, Bool.not_true, alive_addDevicePath, h, true_and,
            Option.some.injEq, Prod.mk.injEq]
          by_cases hg : f = g
          · simp [hg]
          · have hne : g ≠ f := Ne.symm hg
            simp [hg, hne]

theorem alive_attach {k : AttachAnswers σ} {input : VckResult JvckVolumeAttachReq} :
    Alive (handleJvckAttach k input s).2 g ↔ Alive s g := by
  unfold handleJvckAttach
  split
  · rfl
  split
  · rfl
  split
  · rfl
  split
  · rfl
  · simp only [rebindOn]
    split
    · exact alive_bind
    · rfl

theorem alive_teardown {keepFilter : Bool} {x : Option FilterId} :
    Alive (teardown keepFilter x s) g ↔ Alive s g ∧ (keepFilter = false → x ≠ some g) := by
  cases x with
  | none => simp [teardown]
  | some f =>
    cases keepFilter with
    | true => simpa [teardown] using alive_unbind
    | false =>
      have h := alive_detach (s := s) (f := f) (g := g)
      rw [ne_comm] at h
      simpa [teardown] using h

theorem alive_swapFilterDevice : Alive (s.swapFilterDevice id).2 g ↔ Alive s g := Iff.rfl

theorem alive_handleDetach {k : DetachAnswers} {input : VckResult VolumeRequest} :
    Alive (handleDetach k input s).2 g ↔ Alive s g := by
  unfold handleDetach
  split
  · rfl
  split
  · rfl
  rename_i req _
  cases hget : s.get req.volumePath with
  | none => rw [detachVolume_of_none k _ _ hget]
  | some x =>
    rw [detachVolume_of_some k _ _ hget]
    split
    · exact alive_swapFilterDevice
    · rw [alive_teardown, alive_swapFilterDevice]
      simp [Alive]

theorem get_swapFilterDevice_erase {p q : String} (he : s.entries[p]? = some id) (hq : q ≠ p) :
    ((s.erase p).swapFilterDevice id).2.get q = s.get q := by
  simp only [State.get, swapFilterDevice_entries, erase_entry, if_neg hq.symm]
  cases hi : s.entries[q]? with
  | none => rfl
  | some i =>
    have hne : i ≠ id := by
      rintro rfl
      exact hq (entry_unique hi he)
    simp [State.swapFilterDevice, State.modifyVolume, hne]

theorem get_teardown (keepFilter : Bool) (x : Option FilterId) (q : String) :
    (teardown keepFilter x s).get q = s.get q := by
  cases x with
  | none => rfl
  | some f => cases keepFilter <;> rfl

/-- One round of DETACH_ALL: the volume leaves the registry and its filter is deleted. -/
theorem detachData_spec (k : DetachAnswers) (p : String) (s : State σ) :
    (∀ g, Alive (detachVolumeWithDismount k p true false s).2 g ↔
      Alive s g ∧ ∀ id v, s.get p = some (id, v) → v.filterDevice ≠ some g) ∧
    (detachVolumeWithDismount k p true false s).2.get p = none ∧
    ∀ q, q ≠ p → (detachVolumeWithDismount k p true false s).2.get q = s.get q := by
  cases hp : s.get p with
  | none =>
    rw [detachVolume_of_none k _ _ hp]
    exact ⟨fun g => by simp, hp, fun _ _ => rfl⟩
  | some x =>
    obtain ⟨id, v⟩ := x
    obtain ⟨he, -⟩ := get_eq_some_iff.mp hp
    rw [detachVolume_of_some k _ _ hp, if_neg (by simp)]
    refine ⟨?_, ?_, ?_⟩
    · intro g
      rw [alive_teardown, alive_swapFilterDevice]
      simp [Alive]
    · rw [get_teardown, get_eq_none_iff]
      simp [erase_entry]
    · intro q hq
      rw [get_teardown, get_swapFilterDevice_erase he hq]

/-- DETACH_ALL deletes the filters of the listed volumes. -/
theorem alive_detachAll (k : String → DetachAnswers) (paths : List String) (s : State σ) (g : FilterId) :
    Alive (paths.foldl (fun s path => (detachVolumeWithDismount (k path) path true false s).2) s) g ↔
      Alive s g ∧ ∀ p ∈ paths, ∀ id v, s.get p = some (id, v) → v.filterDevice ≠ some g := by
  induction paths generalizing s with
  | nil => simp
  | cons p paths ih =>
    obtain ⟨halive, hgone, hget⟩ := detachData_spec (k p) p s
    rw [List.foldl_cons, ih, halive, and_assoc]
    apply and_congr_right
    intro _
    constructor
    · rintro ⟨hp, hrest⟩ q hq id v hv
      by_cases hqp : q = p
      · exact hp id v (hqp ▸ hv)
      · rw [List.mem_cons] at hq
        exact hrest q (hq.resolve_left hqp) id v (by rw [hget q hqp, hv])
    · intro h
      refine ⟨h p (by simp), ?_⟩
      intro q hq id v hv
      by_cases hqp : q = p
      · rw [hqp, hgone] at hv
        cases hv
      · rw [hget q hqp] at hv
        exact h q (by simp [hq]) id v hv

theorem mem_dataPaths {p : String} :
    p ∈ dataPaths s ↔ ∃ id v, s.get p = some (id, v) ∧ v.isOsVolume = false := by
  simp only [dataPaths, State.all, List.mem_map, List.mem_filter, List.mem_filterMap, Bool.not_eq_true',
    Prod.exists, Std.ExtTreeMap.mem_toList_iff_getElem?_eq_some]
  constructor
  · rintro ⟨id, v, ⟨⟨q, i, -, hget⟩, hos⟩, rfl⟩
    exact ⟨id, v, by rw [volumePath_of_get hget, hget], hos⟩
  · rintro ⟨id, v, hget, hos⟩
    obtain ⟨he, -⟩ := get_eq_some_iff.mp hget
    exact ⟨id, v, ⟨⟨p, id, he, hget⟩, hos⟩, volumePath_of_get hget⟩

theorem alive_handleDetachAll {k : String → DetachAnswers} :
    Alive (handleDetachAllVolumes k s).2 g ↔ Alive s g ∧ ¬ DataFilter s g := by
  unfold handleDetachAllVolumes DataFilter
  rw [alive_detachAll]
  apply and_congr_right
  intro _
  simp only [mem_dataPaths, not_exists, not_and]
  constructor
  · intro h p id v hv hos
    exact h p ⟨id, v, hv, hos⟩ id v hv
  · rintro h p ⟨id, v, hv, hos⟩ i w hw
    rw [hv] at hw
    obtain ⟨rfl, rfl⟩ := Prod.mk.inj (Option.some.inj hw)
    exact h p _ _ hv hos

/-! ## The map over runs -/

theorem pdoFilters_settle (req : JvckVolumePrepareReq) (keep : JvckVolumePrepareResp) (st : Settlement σ) :
    (settle req f keep st s).2.pdoFilters = s.pdoFilters := by
  cases st with
  | keep => rfl
  | complete o => rfl
  | fail e undo => cases undo <;> rfl

theorem pdoFilters_prepare (k : PrepareAnswers σ) (input : VckResult JvckVolumePrepareReq) (s : State σ) :
    (handleJvckPrepare k input s).2.pdoFilters = s.pdoFilters := by
  unfold handleJvckPrepare
  split
  · rfl
  split
  · rfl
  split
  · rfl
  split
  · unfold handleJvckPrepareAddDevicePath
    split
    · rfl
    split
    · rfl
    split
    · rfl
    · exact pdoFilters_settle _ _ _
  · unfold handleJvckPrepareFallback
    simp only
    split
    · rfl
    split
    · rfl
    · exact pdoFilters_settle _ _ _

theorem pdoFilters_attach (k : AttachAnswers σ) (input : VckResult JvckVolumeAttachReq) (s : State σ) :
    (handleJvckAttach k input s).2.pdoFilters = s.pdoFilters := by
  unfold handleJvckAttach
  split
  · rfl
  split
  · rfl
  split
  · rfl
  split
  · rfl
  · simp only [rebindOn]
    split <;> rfl

theorem pdoFilters_detachVolume (k : DetachAnswers) (p : String) (ignoreOpenFiles keepFilter : Bool) (s : State σ) :
    (detachVolumeWithDismount k p ignoreOpenFiles keepFilter s).2.pdoFilters = s.pdoFilters := by
  cases hget : s.get p with
  | none => rw [detachVolume_of_none k _ _ hget]
  | some x =>
    rw [detachVolume_of_some k _ _ hget]
    split
    · rfl
    · unfold teardown
      split
      · rfl
      · cases keepFilter <;> rfl

/-- Only `add_device` adds entries. -/
theorem pdoFilters_request (r : Request σ) (s : State σ) : (r.handle s).2.pdoFilters = s.pdoFilters := by
  cases r with
  | prepare k input => exact pdoFilters_prepare k input s
  | attach k input => exact pdoFilters_attach k input s
  | detach k input =>
    simp only [Request.handle, handleDetach]
    split
    · rfl
    split
    · rfl
    · exact pdoFilters_detachVolume ..

theorem pdoFilters_detachAll (k : String → DetachAnswers) (s : State σ) :
    (handleDetachAllVolumes k s).2.pdoFilters = s.pdoFilters := by
  have hfold : ∀ (paths : List String) (s : State σ),
      (paths.foldl (fun s path => (detachVolumeWithDismount (k path) path true false s).2) s).pdoFilters =
        s.pdoFilters := by
    intro paths
    induction paths with
    | nil => exact fun _ => rfl
    | cons p paths ih => exact fun s => (ih _).trans (pdoFilters_detachVolume ..)
  exact hfold _ s

/-- A call keeps the map live exactly when it deletes no recorded filter. -/
theorem pdoLive_apply_iff (h : PdoLive s) (c : Call σ) : PdoLive (c.apply s) ↔ Spares s c := by
  cases c with
  | addDevice k =>
    refine ⟨fun _ => trivial, fun _ => ?_⟩
    simp only [Call.apply, addDevice]
    split
    · exact h
    · intro e he
      have hmem : e ∈ s.pdoFilters ++ [_] := he
      change Alive (s.createFilter _).2 e.filterDo
      rw [alive_create]
      rcases List.mem_append.mp hmem with he | he
      · exact .inl (h e he)
      · rw [List.mem_singleton] at he
        exact .inr (by rw [he]; rfl)
  | detachAll k =>
    simp only [PdoLive, Call.apply, pdoFilters_detachAll, alive_handleDetachAll, Spares]
    constructor
    · rintro hl f hf ⟨e, he, rfl⟩
      exact (hl e he).2 hf
    · exact fun hs e he => ⟨h e he, fun hf => hs _ hf ⟨e, he, rfl⟩⟩
  | request r =>
    simp only [PdoLive, Call.apply, pdoFilters_request]
    cases r with
    | prepare k input =>
      have halive : ∀ e ∈ s.pdoFilters, (Alive ((Request.prepare k input).handle s).2 e.filterDo ↔
          ¬ PrepareDeletes k input s e.filterDo) := fun e he => alive_prepare (h e he)
      constructor
      · rintro hl f hf ⟨e, he, rfl⟩
        exact (halive e he).mp (hl e he) hf
      · exact fun hs e he => (halive e he).mpr fun hf => hs _ hf ⟨e, he, rfl⟩
    | attach k input => exact ⟨fun _ => trivial, fun _ e he => alive_attach.mpr (h e he)⟩
    | detach k input => exact ⟨fun _ => trivial, fun _ e he => alive_handleDetach.mpr (h e he)⟩

/-- What a lookup in the map returns is live. -/
theorem find_alive (h : PdoLive s) {ntPath : String} {dev lower : DeviceId}
    (hfind : s.findPdoFilterByName ntPath = some (f, lower) ∨ s.findPdoFilter dev = some (f, lower)) : Alive s f := by
  rcases hfind with hfind | hfind
  all_goals
    obtain ⟨e, he, hx⟩ := Option.map_eq_some_iff.mp hfind
    obtain ⟨rfl, -⟩ := Prod.mk.inj hx
    exact h e (List.mem_of_find?_eq_some he)

theorem mapLive_iff : MapLive s ↔ PdoLive s :=
  ⟨fun h => h.entries, fun h => ⟨h, find_alive h⟩⟩

/-- From driver load on, the map and its lookups are live after every call of a run exactly when every call of it spares
the recorded filters. -/
theorem pdo_map_live_iff (handover : Option (Fixed 16)) (calls : List (Call σ)) :
    (∀ n, MapLive ((calls.take n).foldl Call.apply (State.loaded σ handover))) ↔
      StepRun.Along step Spares (State.loaded σ handover) calls := by
  have hgen : ∀ (calls : List (Call σ)) (s : State σ), PdoLive s →
      ((∀ n, PdoLive ((calls.take n).foldl Call.apply s)) ↔ StepRun.Along step Spares s calls) := by
    intro calls
    induction calls with
    | nil =>
      intro s h
      exact ⟨fun _ => trivial, fun _ n => by simpa using h⟩
    | cons c calls ih =>
      intro s h
      have hone := pdoLive_apply_iff h c
      constructor
      · intro hall
        have hlive : PdoLive (c.apply s) := by simpa using hall 1
        refine ⟨hone.mp hlive, ?_⟩
        intro s' hs'
        obtain rfl := Option.some.inj hs'
        exact (ih _ hlive).mp fun n => by simpa using hall (n + 1)
      · rintro ⟨hc, hrest⟩ n
        cases n with
        | zero => simpa using h
        | succ n => simpa using (ih _ (hone.mpr hc)).mpr (hrest _ rfl) n
  simp only [mapLive_iff]
  exact hgen calls _ fun e he => by cases he

end Map

/-- `add_device`, a PREPARE without key and DETACH_ALL: the map still names the filter that is gone. -/
theorem pdo_map_stale_after_detachAll :
    ¬ ∀ n, MapLive (([.addDevice ⟨1, "\\Device\\HarddiskVolume5", .ok 2⟩,
        .request (.prepare (sampleAnswers wrongKey) (.ok (sampleReq "D:" [] false))),
        .detachAll fun _ => ⟨true, true⟩] : List (Call Unit)).take n |>.foldl Call.apply (State.loaded Unit none)) := by
  intro h
  have hstate := h 3
  have hmem : (⟨1, 0, 2, "\\Device\\HarddiskVolume5"⟩ : PdoFilterEntry) ∈ preparedState.pdoFilters := by
    decide +kernel
  have hfilter : DataFilter preparedState 0 :=
    ⟨"D:", 0, _, rfl, by decide +kernel, rfl⟩
  have hlive : PdoLive (Call.apply preparedState (.detachAll fun _ => ⟨true, true⟩)) := hstate.entries
  exact (alive_handleDetachAll.mp (hlive _ (by rw [Call.apply, pdoFilters_detachAll]; exact hmem))).2 hfilter

end PdoMap
