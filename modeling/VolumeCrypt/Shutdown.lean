import VolumeCrypt.ControlDevice
import VolumeCrypt.PdoMap

/-!
# Shutdown

`IRP_MJ_SHUTDOWN` pauses the OS volumes and detaches all others. The OS volumes stay bound, so
that what the system still writes is encrypted, and their boundary must not move any more: the
next boot finds the one that was persisted.
-/
namespace Shutdown

open ByteString VckTypes SectorIo SweepEngine VolumeSweep DriverState Dispatch StartRequest ControlDevice
open JvckMetadata (Primitives)
open JvckStore (JvckMetadataStore)
open PrepareLayout (ReplicaLayout)

/-! ## What the requests do to the volumes in memory -/

section Keeps

variable {σ : Type}

/-- Engine, store and boundary cache of a volume in memory. -/
def attached (s : State σ) (id : VolId) : Option (AttachedVolume (OffsetStore σ)) :=
  (s.volumes id).map (·.toAttachedVolume)

/-- The current volume of the thread of a filter. -/
def vthread (s : State σ) (f : FilterId) : Option VolId := (s.filters f).bind (·.vthread)

/-- Every volume in memory is still there with the same engine, store and boundary cache. No thread has another
volume than before, but that of `g`, which may have got one of the volumes from `n` on. -/
structure Keeps (n : VolId) (g : FilterId) (s s' : State σ) : Prop where
  kept : ∀ {id a}, attached s id = some a → attached s' id = some a
  next : s.nextVolume ≤ s'.nextVolume
  threads : ∀ {f id}, vthread s' f = some id → vthread s f = some id ∨ f = g ∧ n ≤ id ∧ id < s'.nextVolume

variable {n : VolId} {g : FilterId} {s s₁ s₂ : State σ}

/-- A change of filters that leaves no new thread behind. -/
theorem Keeps.of_volumes (h : s₁.volumes = s.volumes) (hnext : s₁.nextVolume = s.nextVolume)
    (hthreads : ∀ f id, vthread s₁ f = some id → vthread s f = some id) : Keeps n g s s₁ := by
  refine ⟨?_, hnext.ge, fun h => .inl (hthreads _ _ h)⟩
  intro id a ha
  rw [attached, h]
  exact ha

theorem Keeps.refl (n : VolId) (g : FilterId) (s : State σ) : Keeps n g s s := .of_volumes rfl rfl fun _ _ => id

theorem Keeps.trans (h : Keeps n g s s₁) (h' : Keeps n g s₁ s₂) : Keeps n g s s₂ := by
  refine ⟨fun ha => h'.kept (h.kept ha), h.next.trans h'.next, ?_⟩
  intro f id hthread
  rcases h'.threads hthread with hold | hnew
  · rcases h.threads hold with hold | ⟨hf, hn, hlt⟩
    · exact .inl hold
    · exact .inr ⟨hf, hn, hlt.trans_le h'.next⟩
  · exact .inr hnew

theorem ne_nextVolume {id : VolId} {a : AttachedVolume (OffsetStore σ)} (ha : attached s id = some a) :
    id ≠ s.nextVolume := by
  rintro rfl
  rw [attached, s.allocated _ le_rfl] at ha
  cases ha

theorem keeps_insert (s : State σ) (v : Volume σ) : Keeps n g s (s.insert v).2 := by
  refine ⟨?_, Nat.le_succ _, .inl⟩
  intro id a ha
  rw [attached]
  exact (congrArg _ (Function.update_of_ne (ne_nextVolume ha) ..)).trans ha

theorem keeps_erase (s : State σ) (path : String) : Keeps n g s (s.erase path) := .of_volumes rfl rfl fun _ _ => id

theorem bindThread_eq_some {thread : Option VolId} {id id' : VolId} {cipher : Bool}
    (h : State.bindThread thread id cipher = some id') : id = id' := by
  cases thread with
  | some _ => exact Option.some.inj h
  | none =>
    cases cipher with
    | true => exact Option.some.inj h
    | false => cases h

/-- What a thread has after a change of one extension. -/
theorem vthread_update {s' : State σ} {f : FilterId} {x : Option DeviceExtension}
    (h : s'.filters = Function.update s.filters f x) (f' : FilterId) :
    vthread s' f' = if f' = f then x.bind (·.vthread) else vthread s f' := by
  rw [vthread, h]
  by_cases hf : f' = f
  · rw [if_pos hf, hf, Function.update_self]
  · rw [if_neg hf, Function.update_of_ne hf]
    rfl

/-- A filter is bound to a new volume. -/
theorem keeps_bind (s : State σ) (f : FilterId) {id : VolId} (hn : n ≤ id) (hid : id < s.nextVolume) :
    Keeps n f s (s.filterBindVolume f id) := by
  refine ⟨fun ha => ha, le_rfl, ?_⟩
  intro f' id' hthread
  rw [vthread_update rfl] at hthread
  by_cases hf : f' = f
  · rw [if_pos hf] at hthread
    obtain ⟨ext', hext', hthread⟩ := Option.bind_eq_some_iff.mp hthread
    obtain ⟨ext, -, rfl⟩ := Option.map_eq_some_iff.mp hext'
    obtain rfl := bindThread_eq_some hthread
    exact .inr ⟨hf, hn, hid⟩
  · rw [if_neg hf] at hthread
    exact .inl hthread

/-- An extension is changed to one without a thread. -/
theorem keeps_threadless {s' : State σ} {f : FilterId} {x : Option DeviceExtension} (hv : s'.volumes = s.volumes)
    (hnext : s'.nextVolume = s.nextVolume) (hf : s'.filters = Function.update s.filters f x)
    (hx : x.bind (·.vthread) = none) : Keeps n g s s' := by
  refine .of_volumes hv hnext ?_
  intro f' id hthread
  rw [vthread_update hf] at hthread
  split at hthread
  · rw [hx] at hthread
    cases hthread
  · exact hthread

theorem keeps_detachFilter (s : State σ) (f : FilterId) : Keeps n g s (s.detachFilter f) :=
  keeps_threadless rfl rfl detachFilter_filters rfl

theorem keeps_createFilter (s : State σ) (lower : DeviceId) : Keeps n g s (s.createFilter lower).2 :=
  keeps_threadless (f := s.nextFilter) (x := some ⟨lower, none, none⟩) rfl rfl rfl rfl

theorem keeps_teardown (keepFilter : Bool) (f : Option FilterId) (s : State σ) :
    Keeps n g s (teardown keepFilter f s) := by
  cases f with
  | none => exact .refl n g s
  | some f =>
    cases keepFilter with
    | true =>
      refine keeps_threadless rfl rfl unbindFilter_filters ?_
      cases s.filters f <;> rfl
    | false => exact keeps_detachFilter s f

theorem attached_modifyVolume (s : State σ) (id : VolId) (g : Volume σ → Volume σ)
    (hg : ∀ v, (g v).volumePath = v.volumePath) (i : VolId) :
    attached (s.modifyVolume id g hg) i = if i = id then (s.volumes id).map fun v => (g v).toAttachedVolume
      else attached s i := by
  rw [attached, State.modifyVolume]
  by_cases hi : i = id
  · rw [if_pos hi, hi]
    simp [Function.comp_def]
  · rw [if_neg hi]
    simp [attached, Function.update_of_ne hi]

theorem keeps_swapFilterDevice (s : State σ) (id : VolId) : Keeps n g s (s.swapFilterDevice id).2 := by
  refine ⟨?_, le_rfl, .inl⟩
  intro i a ha
  rw [State.swapFilterDevice, attached_modifyVolume]
  split
  · rename_i hi
    rw [← hi]
    exact ha
  · exact ha

/-- A new volume is inserted and a filter bound to it. -/
theorem keeps_insertBound (v : Volume σ) (f : FilterId) (h : n ≤ s.nextVolume) :
    Keeps n f s ((s.insert v).2.filterBindVolume f (s.insert v).1) :=
  (keeps_insert s v).trans (keeps_bind _ f h (Nat.lt_succ_self _))

theorem keeps_settle (req : JvckVolumePrepareReq) (f : FilterId) (keep : JvckVolumePrepareResp) (st : Settlement σ)
    (h : n ≤ s.nextVolume) : Keeps n f s (settle req f keep st s).2 := by
  cases st with
  | keep => exact .refl n f s
  | fail e undo =>
    cases undo with
    | false => exact .refl n f s
    | true => exact (keeps_erase s _).trans (keeps_detachFilter _ f)
  | complete o => exact (keeps_erase s _).trans (keeps_insertBound _ f h)

/-- PREPARE binds the filter twice, each time to a volume that is new. -/
theorem keeps_bindSettle (v : Volume σ) (req : JvckVolumePrepareReq) (f : FilterId) (keep : JvckVolumePrepareResp)
    (st : Settlement σ) (h : n ≤ s.nextVolume) : Keeps n f s (settle req f keep st (bindProvisional v f s)).2 :=
  (keeps_insertBound v f h).trans (keeps_settle req f keep st (h.trans (Nat.le_succ _)))

theorem keeps_prepare (k : PrepareAnswers σ) (input : VckResult JvckVolumePrepareReq) (h : n ≤ s.nextVolume) :
    ∃ g, Keeps n g s (handleJvckPrepare k input s).2 := by
  have hsame : ∃ g, Keeps n g s s := ⟨0, .refl n 0 s⟩
  unfold handleJvckPrepare
  split
  · exact hsame
  split
  · exact hsame
  split
  · exact hsame
  split
  · unfold handleJvckPrepareAddDevicePath
    split
    · exact hsame
    split
    · exact hsame
    split
    · exact hsame
    · exact ⟨_, keeps_bindSettle _ _ _ _ _ h⟩
  · unfold handleJvckPrepareFallback
    simp only
    split
    · exact hsame
    split
    · exact hsame
    · exact ⟨_, (keeps_createFilter s _).trans (keeps_bindSettle _ _ _ _ _ h)⟩

theorem keeps_attach (k : AttachAnswers σ) (input : VckResult JvckVolumeAttachReq) (h : n ≤ s.nextVolume) :
    ∃ g, Keeps n g s (handleJvckAttach k input s).2 := by
  have hsame : ∃ g, Keeps n g s s := ⟨0, .refl n 0 s⟩
  unfold handleJvckAttach
  split
  · exact hsame
  split
  · exact hsame
  split
  · exact hsame
  split
  · exact hsame
  · rename_i req _ _ old _ _ _ o _
    have hrebind (f : Option FilterId) (s' : State σ) (hlt : s.nextVolume < s'.nextVolume) :
        ∃ g, Keeps n g s' (rebindOn f s.nextVolume s') := by
      cases f with
      | none => exact ⟨0, .refl n 0 s'⟩
      | some f => exact ⟨f, keeps_bind s' f h hlt⟩
    obtain ⟨g, hg⟩ := hrebind old.filterDevice
      ((s.erase req.volumePath).insert (o.complete req.volumePath .ioctl old.filterDevice)).2 (Nat.lt_succ_self _)
    exact ⟨g, ((keeps_erase s req.volumePath).trans (keeps_insert _ _)).trans hg⟩

theorem keeps_detachVolume (k : DetachAnswers) (path : String) (ignoreOpenFiles keepFilter : Bool) (s : State σ) :
    Keeps n g s (detachVolumeWithDismount k path ignoreOpenFiles keepFilter s).2 := by
  cases hget : s.get path with
  | none =>
    rw [detachVolume_of_none k _ _ hget]
    exact .refl n g s
  | some x =>
    have hswap : Keeps n g s ((s.erase path).swapFilterDevice x.1).2 :=
      (keeps_erase s path).trans (keeps_swapFilterDevice _ x.1)
    rw [detachVolume_of_some k _ _ hget]
    split
    · exact hswap
    · exact hswap.trans (keeps_teardown ..)

theorem keeps_detach (k : DetachAnswers) (input : VckResult VolumeRequest) (s : State σ) :
    Keeps n g s (handleDetach k input s).2 := by
  unfold handleDetach
  split
  · exact .refl n g s
  split
  · exact .refl n g s
  · exact keeps_detachVolume ..

theorem keeps_detachAll (k : String → DetachAnswers) (s : State σ) : Keeps n g s (handleDetachAllVolumes k s).2 := by
  have hfold (paths : List String) (s₁ : State σ) : Keeps n g s₁
      (paths.foldl (fun s path => (detachVolumeWithDismount (k path) path true false s).2) s₁) := by
    induction paths generalizing s₁ with
    | nil => exact .refl n g s₁
    | cons path paths ih => exact (keeps_detachVolume ..).trans (ih _)
  exact hfold (dataPaths s) s

theorem keeps_addDevice (k : AddDeviceAnswers) (s : State σ) : Keeps n g s (addDevice k s) := by
  unfold addDevice
  split
  · exact .refl n g s
  · exact (keeps_createFilter s _).trans (.of_volumes rfl rfl fun _ _ => id)

/-- The mount resumes the sweep of the volume that it has just made, and of no other. -/
theorem keeps_mount (S : EncryptedOffsetStore σ) (d : Device) (k : HandoverAnswers σ) (f : FilterId)
    (h : n ≤ s.nextVolume) : Keeps n f s (tryMountHandoverVolume S d k f s) := by
  unfold tryMountHandoverVolume
  split
  · exact .refl n f s
  split
  · exact .refl n f s
  split
  · exact .refl n f s
  · rename_i ext _ _ _ o _
    have hinsert : Keeps n f s (s.insert (o.complete (handoverPath s f ext.lowerDevice) .handover (some f))).2 :=
      keeps_insert s _
    have hresume : Keeps n f s ((s.insert (o.complete (handoverPath s f ext.lowerDevice) .handover
        (some f))).2.modifyAttached s.nextVolume (resumeVolume S d)) := by
      refine ⟨?_, hinsert.next, hinsert.threads⟩
      intro id a ha
      rw [State.modifyAttached, attached_modifyVolume]
      exact (if_neg (ne_nextVolume ha)).trans (hinsert.kept ha)
    exact hresume.trans (keeps_bind _ f h (Nat.lt_succ_self _))

end Keeps

/-! ## Pausing and detaching -/

section Pausing

variable {s : State JvckMetadataStore} {w : World} {i : VolId}

def pauseOne (v : Volume JvckMetadataStore) : Volume JvckMetadataStore :=
  { v with encryption := v.encryption.pause }

theorem pause_pause (e : EncryptionEngine) : e.pause.pause = e.pause := by
  obtain ⟨offsetSector, encryptedOffset, state⟩ := e
  cases state <;> rfl

theorem pause_rests (e : EncryptionEngine) : e.pause.state ≠ .encrypting ∧ e.pause.state ≠ .decrypting := by
  obtain ⟨offsetSector, encryptedOffset, state⟩ := e
  cases state <;> exact ⟨nofun, nofun⟩

/-- Pausing touches nothing but the engines of the listed volumes. -/
theorem pauseVolumes_spec (ids : List VolId) (w : World) :
    (ids.foldl pauseVolume w).device = w.device ∧ (ids.foldl pauseVolume w).state.entries = w.state.entries ∧
      (ids.foldl pauseVolume w).state.filters = w.state.filters ∧
      ∀ i, (ids.foldl pauseVolume w).state.volumes i =
        if i ∈ ids then (w.state.volumes i).map pauseOne else w.state.volumes i := by
  induction ids generalizing w with
  | nil => exact ⟨rfl, rfl, rfl, fun i => (if_neg (by simp)).symm⟩
  | cons id ids ih =>
    obtain ⟨hdev, hent, hfil, hvol⟩ := ih (pauseVolume w id)
    refine ⟨hdev, hent, hfil, ?_⟩
    intro i
    have hone : (pauseVolume w id).state.volumes i =
        if i = id then (w.state.volumes i).map pauseOne else w.state.volumes i := by
      by_cases hi : i = id
      · rw [if_pos hi, hi]
        exact Function.update_self ..
      · rw [if_neg hi]
        exact Function.update_of_ne hi ..
    have hidem : pauseOne ∘ pauseOne = pauseOne := by
      funext v
      simp only [Function.comp, pauseOne, pause_pause]
    rw [List.foldl_cons, hvol, hone]
    by_cases hi : i = id <;> by_cases hmem : i ∈ ids <;> simp [hi, hmem, hidem]

theorem mem_all_iff {x : VolId × Volume JvckMetadataStore} : x ∈ s.all ↔ ∃ p, s.get p = some x := by
  rw [State.all, List.mem_filterMap]
  constructor
  · rintro ⟨e, -, he⟩
    exact ⟨e.1, he⟩
  · rintro ⟨p, hp⟩
    obtain ⟨he, -⟩ := get_eq_some_iff.mp hp
    exact ⟨(p, x.1), Std.ExtTreeMap.mem_toList_iff_getElem?_eq_some.mpr he, hp⟩

/-- The registry behind IOCTL_VCK_PAUSE_OS_VOLUME. -/
theorem get_pauseOs (w : World) (p : String) :
    (handlePauseOsVolume w).state.get p =
      (w.state.get p).map fun x => (x.1, if x.2.isOsVolume then pauseOne x.2 else x.2) := by
  obtain ⟨-, hent, -, hvol⟩ := pauseVolumes_spec ((w.state.all.filter (·.2.isOsVolume)).map (·.1)) w
  rw [State.get, State.get, handlePauseOsVolume, hent]
  cases he : w.state.entries[p]? with
  | none => rfl
  | some id =>
    obtain ⟨v, hv, -⟩ := w.state.named he
    have hget : w.state.get p = some (id, v) := get_eq_some_iff.mpr ⟨he, hv⟩
    have hmem : id ∈ (w.state.all.filter (·.2.isOsVolume)).map (·.1) ↔ v.isOsVolume = true := by
      simp only [List.mem_map, List.mem_filter, mem_all_iff]
      constructor
      · rintro ⟨⟨id', v'⟩, ⟨⟨q, hq⟩, hos⟩, rfl⟩
        obtain rfl := Option.some.inj (hv.symm.trans (volumes_of_get hq))
        exact hos
      · intro hos
        exact ⟨(id, v), ⟨⟨p, hget⟩, hos⟩, rfl⟩
    simp only [Option.bind_some, hvol, hmem, hv]
    by_cases hos : v.isOsVolume = true <;> simp [hos]

/-- One round of DETACH_ALL deletes no filter but that of the volume. -/
theorem filters_detachData (k : DetachAnswers) (p : String) (s : State JvckMetadataStore) (f : FilterId)
    (hf : ∀ id v, s.get p = some (id, v) → v.filterDevice ≠ some f) :
    (detachVolumeWithDismount k p true false s).2.filters f = s.filters f := by
  cases hp : s.get p with
  | none => rw [detachVolume_of_none k _ _ hp]
  | some x =>
    obtain ⟨id, v⟩ := x
    rw [detachVolume_of_some k _ _ hp, if_neg (by simp)]
    have hne := hf id v hp
    cases hfd : v.filterDevice with
    | none => rfl
    | some g =>
      have hfg : f ≠ g := fun he => hne (by rw [hfd, he])
      change Function.update s.filters g none f = s.filters f
      exact Function.update_of_ne hfg ..

/-- DETACH_ALL takes the listed volumes out and leaves the filters of all others alone. -/
theorem detachVolumes_spec (k : String → DetachAnswers) (paths : List String) (s : State JvckMetadataStore) :
    (∀ q, (paths.foldl (fun s path => (detachVolumeWithDismount (k path) path true false s).2) s).get q =
        if q ∈ paths then none else s.get q) ∧
      ∀ f, (∀ p ∈ paths, ∀ id v, s.get p = some (id, v) → v.filterDevice ≠ some f) →
        (paths.foldl (fun s path => (detachVolumeWithDismount (k path) path true false s).2) s).filters f =
          s.filters f := by
  induction paths generalizing s with
  | nil => exact ⟨fun q => (if_neg (by simp)).symm, fun _ _ => rfl⟩
  | cons p paths ih =>
    obtain ⟨-, hgone, hkept⟩ := PdoMap.detachData_spec (k p) p s
    obtain ⟨hget, hfilters⟩ := ih (detachVolumeWithDismount (k p) p true false s).2
    rw [List.foldl_cons]
    refine ⟨?_, ?_⟩
    · intro q
      rw [hget]
      by_cases hq : q = p
      · simp [hq, hgone]
      · simp [hq, hkept q hq]
    · intro f hf
      rw [hfilters f, filters_detachData (k p) p s f (hf p (by simp))]
      intro q hq id v hv
      by_cases hqp : q = p
      · rw [hqp, hgone] at hv
        cases hv
      · rw [hkept q hqp] at hv
        exact hf q (by simp [hq]) id v hv

end Pausing

/-! ## The IRP -/

section Irp

variable {W : Wire} {P : Primitives} {k : Answers} {w : World}

/-- The world behind IRP_MJ_SHUTDOWN when both requests to the own device can be built. -/
def shutDown (W : Wire) (P : Primitives) (k : Answers) (w : World) : World :=
  (dispatchAny W P k (.shutdown true true) w).2

/-- A request of the driver to itself is authorized and carries no input. -/
theorem sendSelfIoctl_world (W : Wire) (P : Primitives) (k : Answers) (built : Bool) (i : Ioctl) (w : World) :
    (sendSelfIoctl W P k built i w).2 =
      if built then (dispatchIoctl W P k ⟨i.code, .kernel, none⟩ [] w).2 else w := by
  cases built with
  | false => rfl
  | true =>
    exact dispatchDeviceControl_world (W := W) (P := P) (k := k) ⟨i.code, 0, 0, none⟩ ⟨.kernel, none⟩ w

theorem authorize_kernel (i : Ioctl) : authorize ⟨i.code, .kernel, none⟩ = .ok () := by
  rw [authorize]
  split <;> rfl

theorem driverShutdown_world (W : Wire) (P : Primitives) (k : Answers) (w : World) :
    driverShutdown W P k true w = { w with state := (handleDetachAllVolumes k.detachAll w.state).2 } := by
  rw [driverShutdown, sendSelfIoctl_world, if_pos rfl, dispatchIoctl, authorize_kernel, Ioctl.ofCode_code]
  rfl

theorem shutdown_world (W : Wire) (P : Primitives) (k : Answers) (w : World) :
    shutDown W P k w =
      { handlePauseOsVolume w with
        state := (handleDetachAllVolumes k.detachAll (handlePauseOsVolume w).state).2 } := by
  have hpause : (sendSelfIoctl W P k true .pauseOsVolume w).2 = handlePauseOsVolume w := by
    rw [sendSelfIoctl_world, if_pos rfl, dispatchIoctl, authorize_kernel, Ioctl.ofCode_code]
  rw [shutDown, dispatchAny, hpause]
  exact driverShutdown_world W P k _

/-- The registry behind DETACH_ALL has the OS volumes of the one before. -/
theorem get_detachAll (k : String → DetachAnswers) (s : State JvckMetadataStore) (p : String) :
    (handleDetachAllVolumes k s).2.get p = (s.get p).filter (·.2.isOsVolume) := by
  obtain ⟨hget, -⟩ := detachVolumes_spec k (dataPaths s) s
  have hmem := PdoMap.mem_dataPaths (s := s) (p := p)
  refine (hget p).trans ?_
  cases hp : s.get p with
  | none => exact ite_self none
  | some x =>
    obtain ⟨id, v⟩ := x
    simp only [hp, Option.some.injEq, Prod.mk.injEq] at hmem
    cases hos : v.isOsVolume with
    | false =>
      rw [if_pos (hmem.mpr ⟨id, v, ⟨rfl, rfl⟩, hos⟩), Option.filter_some, hos]
      rfl
    | true =>
      have hnot : p ∉ dataPaths s := by
        rw [hmem]
        rintro ⟨_, _, ⟨rfl, rfl⟩, hdata⟩
        rw [hos] at hdata
        cases hdata
      rw [if_neg hnot, Option.filter_some, hos]
      rfl

end Irp

/-! ## After the shutdown -/

/-- What may still happen: IRPs on the control device, device arrivals and handover mounts, batches of the volume
threads, and I/O through the filters. -/
inductive Later where
  | irp (k : Answers) (irp : Irp)
  | addDevice (k : AddDeviceAnswers)
  | mount (k : HandoverAnswers JvckMetadataStore) (f : FilterId)
  | sweep (id : VolId) (batchSectors : UInt64)
  | io (change : VolId → Device → Device)

section Runs

variable (W : Wire) (P : Primitives)

/-- One batch of the thread of a volume. -/
def sweepVolume (id : VolId) (batchSectors : UInt64) (w : World) : World :=
  match w.state.volumes id with
  | none => w
  | some v =>
    let (_, a, d) := v.toAttachedVolume.sweepStep (offsetStore (jvckOffsetStore P)) batchSectors (w.device id)
    ⟨w.state.modifyAttached id fun _ => a, Function.update w.device id d⟩

def step (w : World) : Later → Option World
  | .irp k irp => some (dispatchAny W P k irp w).2
  | .addDevice k => some { w with state := Dispatch.addDevice k w.state }
  | .mount k f =>
    some { w with
      state := tryMountHandoverVolume (jvckOffsetStore P) (w.device w.state.nextVolume) k f w.state }
  | .sweep id batchSectors => some (sweepVolume P id batchSectors w)
  | .io change => some { w with device := fun id => change id (w.device id) }

/-- A START request for the volume that is carried out. -/
def Starts (id : VolId) (k : Answers) (ctx : IoctlAuthContext) (input : Bytes) (w : World) : Prop :=
  authorize ctx = .ok () ∧
    (Ioctl.ofCode ctx.ioctlCode = some .startEncrypt ∨ Ioctl.ofCode ctx.ioctlCode = some .startDecrypt) ∧
    ∃ req v, W.volumeReq input = .ok req ∧ resolveVolume k.find req.volumePath w.state = some (id, v)

def Spares (id : VolId) (w : World) : Later → Prop
  | .irp k (.deviceControl params requestor) => ∀ input, params.input = some input →
    ¬ Starts W id k ⟨params.ioControlCode, requestor.mode, requestor.token⟩ input w
  | _ => True

/-- `KeBugCheckEx` does not return. -/
def driverUnload (k : Answers) (built : Bool) (w : World) : Option World :=
  let w := driverShutdown W P k built w
  if w.state.all.any fun x => x.2.isOsVolume && x.2.hasEncryptedData then none else some w

end Runs

/-- What requests other than START and device arrivals keep: it reads engine, store, cache and device of volumes in
memory and the threads that serve them, and pausing keeps it. -/
structure Closed (R : World → Prop) : Prop where
  keeps : ∀ {w w' g}, R w → Keeps w.state.nextVolume g w.state w'.state → w'.device = w.device → R w'
  pause : ∀ {w}, R w → ∀ id, R (pauseVolume w id)

/-- The request that starts a sweep in direction `v`. -/
def startIoctl : VolumeState → Ioctl
  | .encrypt => .startEncrypt
  | .decrypt => .startDecrypt

/-- The START handlers keep `R` when the request gets to them. -/
def StartsKeep (W : Wire) (P : Primitives) (R : World → Prop) (k : Answers) (ctx : IoctlAuthContext) (input : Bytes)
    (w : World) : Prop :=
  authorize ctx = .ok () → ∀ v, Ioctl.ofCode ctx.ioctlCode = some (startIoctl v) →
    R (handleDirection P v k.find (W.volumeReq input) w).2

section Closed

variable {W : Wire} {P : Primitives} {R : World → Prop} {k : Answers} {w w' : World}

theorem Closed.pauseAll (hR : Closed R) (h : R w) (ids : List VolId) : R (ids.foldl pauseVolume w) := by
  induction ids generalizing w with
  | nil => exact h
  | cons id ids ih => exact ih (hR.pause h id)

theorem Closed.handlePause (hR : Closed R) (h : R w) (input : VckResult VolumeRequest) :
    R (handlePause k input w).2 := by
  unfold ControlDevice.handlePause
  split
  · exact h
  split
  · exact h
  · exact hR.pause h _

theorem Closed.dispatchIoctl (hR : Closed R) (h : R w) {ctx : IoctlAuthContext} {input : Bytes}
    (hs : StartsKeep W P R k ctx input w) : R (dispatchIoctl W P k ctx input w).2 := by
  rw [ControlDevice.dispatchIoctl]
  cases hauth : authorize ctx with
  | error e => exact h
  | ok u =>
    cases hi : Ioctl.ofCode ctx.ioctlCode with
    | none => exact h
    | some i =>
      cases i with
      | getStatus | getProgress | benchAes | listVolumes => exact h
      | startEncrypt => exact hs hauth .encrypt hi
      | startDecrypt => exact hs hauth .decrypt hi
      | pause => exact hR.handlePause h _
      | jvckPrepare =>
        obtain ⟨g, hg⟩ := keeps_prepare k.prepare (W.prepareReq input) (s := w.state) le_rfl
        exact hR.keeps h hg rfl
      | jvckAttach =>
        obtain ⟨g, hg⟩ := keeps_attach k.attach (W.attachReq input) (s := w.state) le_rfl
        exact hR.keeps h hg rfl
      | detach => exact hR.keeps (g := 0) h (keeps_detach ..) rfl
      | pauseOsVolume => exact hR.pauseAll h _
      | detachAllVolumes => exact hR.keeps (g := 0) h (keeps_detachAll ..) rfl

theorem Closed.sendSelf (hR : Closed R) (h : R w) (built : Bool) {i : Ioctl} (hi : ∀ v, i ≠ startIoctl v) :
    R (sendSelfIoctl W P k built i w).2 := by
  rw [sendSelfIoctl_world]
  split
  · refine hR.dispatchIoctl h ?_
    intro _ v hcode
    rw [Ioctl.ofCode_code] at hcode
    exact absurd (Option.some.inj hcode) (hi v)
  · exact h

/-- The rule for IRPs: of all requests only START has to be looked at. -/
theorem Closed.irp (hR : Closed R) (h : R w) {irp : Irp}
    (hs : ∀ params requestor input, irp = .deviceControl params requestor → params.input = some input →
      StartsKeep W P R k ⟨params.ioControlCode, requestor.mode, requestor.token⟩ input w) :
    R (dispatchAny W P k irp w).2 := by
  cases irp with
  | create | close | cleanup | other => exact h
  | deviceControl params requestor =>
    rw [dispatchAny, dispatchDeviceControl_world]
    cases hin : params.input with
    | none => exact h
    | some input => exact hR.dispatchIoctl h (hs params requestor input rfl hin)
  | shutdown pauseBuilt detachBuilt =>
    have hpauses (v : VolumeState) : Ioctl.pauseOsVolume ≠ startIoctl v := by cases v <;> decide
    have hdetaches (v : VolumeState) : Ioctl.detachAllVolumes ≠ startIoctl v := by cases v <;> decide
    exact hR.sendSelf (hR.sendSelf h pauseBuilt hpauses) detachBuilt hdetaches

/-- What batches and I/O keep as well. -/
theorem Closed.step (hR : Closed R) (hsweep : ∀ {w}, R w → ∀ id batchSectors, R (sweepVolume P id batchSectors w))
    (hio : ∀ {w}, R w → ∀ change : VolId → Device → Device, R { w with device := fun id => change id (w.device id) })
    (h : R w) {e : Later}
    (hs : ∀ k params requestor input, e = .irp k (.deviceControl params requestor) → params.input = some input →
      StartsKeep W P R k ⟨params.ioControlCode, requestor.mode, requestor.token⟩ input w)
    (he : step W P w e = some w') : R w' := by
  cases e with
  | irp k irp =>
    obtain rfl := Option.some.inj he
    refine hR.irp h ?_
    rintro params requestor input rfl hin
    exact hs k params requestor input rfl hin
  | addDevice k =>
    obtain rfl := Option.some.inj he
    exact hR.keeps (g := 0) h (keeps_addDevice ..) rfl
  | mount k f =>
    obtain rfl := Option.some.inj he
    exact hR.keeps h (keeps_mount _ _ _ _ le_rfl) rfl
  | sweep i batchSectors =>
    obtain rfl := Option.some.inj he
    exact hsweep h i batchSectors
  | io change =>
    obtain rfl := Option.some.inj he
    exact hio h change

end Closed

/-- The volume is in memory, does not sweep, and is that of before but for the state of the engine, the number of
ciphers it has handed out, and the cache, which may have been brought up to the boundary. -/
def Frozen (a : AttachedVolume (OffsetStore JvckMetadataStore)) (id : VolId) (w : World) : Prop :=
  ∃ state cache calls, state ≠ .encrypting ∧ state ≠ .decrypting ∧
    (cache = a.encryptedBoundary ∨ cache = a.encryption.encryptedBoundary) ∧
    attached w.state id = some { a with
      encryption := { a.encryption with state }
      encryptedBoundary := cache
      cipherCalls := calls }

section Frozen

variable {W : Wire} {P : Primitives} {k : Answers} {w w' : World} {id : VolId}
  {a : AttachedVolume (OffsetStore JvckMetadataStore)}

theorem Frozen.of_attached (h : Frozen a id w) (hw : attached w'.state id = attached w.state id) : Frozen a id w' := by
  obtain ⟨state, cache, calls, henc, hdec, hcache, hatt⟩ := h
  exact ⟨state, cache, calls, henc, hdec, hcache, hw.trans hatt⟩

theorem Frozen.of_keeps {n : VolId} {g : FilterId} (h : Frozen a id w) (hw : Keeps n g w.state w'.state) :
    Frozen a id w' := by
  obtain ⟨state, cache, calls, henc, hdec, hcache, hatt⟩ := h
  exact ⟨state, cache, calls, henc, hdec, hcache, hw.kept hatt⟩

theorem attached_modifyAttached (s : State JvckMetadataStore) (id i : VolId)
    (g : AttachedVolume (OffsetStore JvckMetadataStore) → AttachedVolume (OffsetStore JvckMetadataStore)) :
    attached (s.modifyAttached id g) i = if i = id then (attached s id).map g else attached s i := by
  have hmap : (attached s id).map g = (s.volumes id).map fun v => g v.toAttachedVolume := Option.map_map ..
  rw [State.modifyAttached, attached_modifyVolume, hmap]

/-- An engine that rests is left alone by `pause`. -/
theorem pause_of_rests {e : EncryptionEngine} (henc : e.state ≠ .encrypting) (hdec : e.state ≠ .decrypting) :
    e.pause = e := by
  obtain ⟨offsetSector, encryptedOffset, state⟩ := e
  cases state with
  | encrypting => exact absurd rfl henc
  | decrypting => exact absurd rfl hdec
  | idle => rfl
  | paused => rfl

theorem Frozen.pause (h : Frozen a id w) (i : VolId) : Frozen a id (pauseVolume w i) := by
  obtain ⟨state, cache, calls, henc, hdec, hcache, hatt⟩ := h
  refine ⟨state, cache, calls, henc, hdec, hcache, ?_⟩
  rw [pauseVolume, attached_modifyAttached]
  split
  · rename_i hi
    rw [← hi, hatt, Option.map_some, pause_of_rests henc hdec]
  · exact hatt

/-- A batch of a volume that rests refreshes the cache at most. -/
theorem sweepStep_rests {S : EncryptedOffsetStore (OffsetStore JvckMetadataStore)} (batchSectors : UInt64) (d : Device)
    (henc : a.encryption.state ≠ .encrypting) (hdec : a.encryption.state ≠ .decrypting) :
    ∃ cache calls, (cache = a.encryptedBoundary ∨ cache = a.encryption.encryptedBoundary) ∧
      a.sweepStep S batchSectors d = (.ok false, { a with encryptedBoundary := cache, cipherCalls := calls }, d) := by
  have hacq : ∃ calls, a.acquired = { a with cipherCalls := calls } := by
    rw [AttachedVolume.acquired]
    split
    · exact ⟨_, rfl⟩
    · exact ⟨a.cipherCalls, rfl⟩
  obtain ⟨calls, hcalls⟩ := hacq
  rw [AttachedVolume.sweepStep, hcalls]
  split
  · exact ⟨a.encryptedBoundary, calls, .inl rfl, rfl⟩
  · rename_i cipher _
    have hstep : EncryptionEngine.progressStep S cipher batchSectors a.encryption a.offsetStore d =
        (.ok false, a.encryption, a.offsetStore, d) := by
      rw [EncryptionEngine.progressStep]
      split
      · rename_i hs
        exact absurd hs henc
      · rename_i hs
        exact absurd hs hdec
      · rfl
    rw [hstep]
    exact ⟨a.encryption.encryptedBoundary, calls, .inr rfl, rfl⟩

/-- The thread of a volume that rests writes nothing. -/
theorem sweepVolume_rests {v : Volume JvckMetadataStore} (hv : w.state.volumes id = some v) (batchSectors : UInt64)
    (henc : v.encryption.state ≠ .encrypting) (hdec : v.encryption.state ≠ .decrypting) :
    ∃ cache calls, (cache = v.encryptedBoundary ∨ cache = v.encryption.encryptedBoundary) ∧
      sweepVolume P id batchSectors w = { w with
        state := w.state.modifyAttached id fun _ =>
          { v.toAttachedVolume with encryptedBoundary := cache, cipherCalls := calls } } := by
  obtain ⟨cache, calls, hcache, hstep⟩ :=
    sweepStep_rests (S := offsetStore (jvckOffsetStore P)) (a := v.toAttachedVolume) batchSectors (w.device id) henc hdec
  refine ⟨cache, calls, hcache, ?_⟩
  rw [sweepVolume, hv]
  simp only
  rw [hstep, Function.update_eq_self]

theorem Frozen.sweep_self (h : Frozen a id w) (batchSectors : UInt64) :
    Frozen a id (sweepVolume P id batchSectors w) ∧ (sweepVolume P id batchSectors w).device = w.device := by
  obtain ⟨state, cache, calls, henc, hdec, hcache, hatt⟩ := h
  obtain ⟨v, hv, hva⟩ := Option.map_eq_some_iff.mp hatt
  have heng : v.encryption = { a.encryption with state } := congrArg AttachedVolume.encryption hva
  have hold : v.encryptedBoundary = cache := congrArg AttachedVolume.encryptedBoundary hva
  obtain ⟨cache', calls', hcache', hsweep⟩ := sweepVolume_rests (P := P) hv batchSectors (by rw [heng]; exact henc)
    (by rw [heng]; exact hdec)
  rw [hsweep]
  refine ⟨⟨state, cache', calls', henc, hdec, ?_, ?_⟩, rfl⟩
  · rw [hold, heng] at hcache'
    rcases hcache' with rfl | rfl
    · exact hcache
    · exact .inr rfl
  · rw [attached_modifyAttached, if_pos rfl, hatt, Option.map_some, hva]

theorem attached_sweepVolume_of_ne {i : VolId} (hi : id ≠ i) (batchSectors : UInt64) (w : World) :
    attached (sweepVolume P i batchSectors w).state id = attached w.state id := by
  rw [sweepVolume]
  split
  · rfl
  · simp only
    rw [attached_modifyAttached, if_neg hi]

theorem Frozen.sweep (h : Frozen a id w) (i : VolId) (batchSectors : UInt64) :
    Frozen a id (sweepVolume P i batchSectors w) := by
  by_cases hi : id = i
  · rw [← hi]
    exact (h.sweep_self batchSectors).1
  · exact h.of_attached (attached_sweepVolume_of_ne hi batchSectors w)

/-- A START request leaves the volumes alone that it is not for. -/
theorem attached_handleDirection_of_ne {v : VolumeState} {input : VckResult VolumeRequest} {find : FindAnswers}
    (hs : ∀ req x, input = .ok req → resolveVolume find req.volumePath w.state ≠ some (id, x)) :
    attached (handleDirection P v find input w).2.state id = attached w.state id := by
  have hstart (start : EncryptedOffsetStore (OffsetStore JvckMetadataStore) → EncryptionEngine →
      OffsetStore JvckMetadataStore → Device → EncryptionEngine × OffsetStore JvckMetadataStore × Device) :
      attached (handleStart P start find input w).2.state id = attached w.state id := by
    unfold handleStart
    split
    · rfl
    · rename_i req
      split
      · rfl
      · rename_i i x hres
        have hne : id ≠ i := by
          rintro rfl
          exact hs req x rfl hres
        simp only
        rw [attached_modifyAttached, if_neg hne]
  cases v with
  | encrypt => exact hstart _
  | decrypt => exact hstart _

theorem closed_frozen (a : AttachedVolume (OffsetStore JvckMetadataStore)) (id : VolId) : Closed (Frozen a id) :=
  ⟨fun h hw _ => h.of_keeps hw, fun h i => h.pause i⟩

/-- No request but START moves the boundary. -/
theorem Frozen.step (h : Frozen a id w) {e : Later} (hs : Spares W id w e) (he : step W P w e = some w') :
    Frozen a id w' := by
  refine (closed_frozen a id).step (fun h i batchSectors => h.sweep i batchSectors) (fun h _ => h) h ?_ he
  rintro k params requestor input rfl hin hauth v hi
  have hnone : ∀ req x, W.volumeReq input = .ok req → resolveVolume k.find req.volumePath w.state ≠ some (id, x) := by
    intro req x hreq hres
    refine hs input hin ⟨hauth, ?_, req, x, hreq, hres⟩
    cases v with
    | encrypt => exact .inl hi
    | decrypt => exact .inr hi
  exact h.of_attached (attached_handleDirection_of_ne hnone)

end Frozen

/-! ## Whole shutdowns -/

section Whole

variable {W : Wire} {P : Primitives} {k : Answers} {w : World} {p : String} {id : VolId}
  {v : Volume JvckMetadataStore}

/-- The registry behind the IRP. -/
theorem get_shutdown (W : Wire) (P : Primitives) (k : Answers) (w : World) (p : String) :
    (shutDown W P k w).state.get p =
      ((w.state.get p).filter (·.2.isOsVolume)).map fun x => (x.1, pauseOne x.2) := by
  rw [shutdown_world]
  refine (get_detachAll k.detachAll _ p).trans ?_
  rw [get_pauseOs]
  cases w.state.get p with
  | none => rfl
  | some x =>
    obtain ⟨id, v⟩ := x
    cases hos : v.isOsVolume with
    | false => simp [Option.filter_some, hos]
    | true =>
      have hpaused : (pauseOne v).isOsVolume = true := hos
      simp [Option.filter_some, hos, hpaused]

theorem filters_shutdown (W : Wire) (P : Primitives) (k : Answers) {f : FilterId}
    (hf : ¬ PdoMap.DataFilter w.state f) :
    (shutDown W P k w).state.filters f = w.state.filters f := by
  obtain ⟨-, -, hfilters, -⟩ := pauseVolumes_spec ((w.state.all.filter (·.2.isOsVolume)).map (·.1)) w
  obtain ⟨-, hdetach⟩ := detachVolumes_spec k.detachAll (dataPaths (handlePauseOsVolume w).state)
    (handlePauseOsVolume w).state
  rw [shutdown_world]
  refine (hdetach f ?_).trans (congrFun hfilters f)
  intro p hp id v hget hfilter
  obtain ⟨id', v', hget', hdata⟩ := PdoMap.mem_dataPaths.mp hp
  obtain ⟨rfl, rfl⟩ := Prod.mk.inj (Option.some.inj (hget'.symm.trans hget))
  rw [get_pauseOs] at hget
  obtain ⟨⟨id, v⟩, hold, heq⟩ := Option.map_eq_some_iff.mp hget
  obtain ⟨rfl, rfl⟩ := Prod.mk.inj heq
  -- Pausing changes neither the mark of a volume nor its filter.
  split at hdata
  · rename_i hos
    rw [show (pauseOne v).isOsVolume = v.isOsVolume from rfl, hos] at hdata
    cases hdata
  · rename_i hos
    rw [if_neg hos] at hfilter
    exact hf ⟨p, _, v, hold, hdata, hfilter⟩

theorem frozen_shutdown (W : Wire) (P : Primitives) (k : Answers) (hget : w.state.get p = some (id, v))
    (hos : v.isOsVolume = true) :
    Frozen v.toAttachedVolume id (shutDown W P k w) := by
  have hafter := get_shutdown W P k w p
  rw [hget, Option.filter_some, if_pos hos] at hafter
  have hvol := volumes_of_get hafter
  obtain ⟨henc, hdec⟩ := pause_rests v.encryption
  have hengine : v.encryption.pause = { v.encryption with state := v.encryption.pause.state } := by
    generalize v.encryption = e
    obtain ⟨offsetSector, encryptedOffset, state⟩ := e
    cases state <;> rfl
  refine ⟨v.encryption.pause.state, v.encryptedBoundary, v.cipherCalls, henc, hdec, .inl rfl, ?_⟩
  rw [attached, hvol, Option.map_some, ← hengine]
  rfl

/-- Unloading stops the system exactly when an OS volume with encrypted data is attached. -/
theorem driverUnload_eq_none_iff (W : Wire) (P : Primitives) (k : Answers) (w : World) :
    driverUnload W P k true w = none ↔
      ∃ p id v, w.state.get p = some (id, v) ∧ v.isOsVolume = true ∧ v.hasEncryptedData = true := by
  rw [driverUnload, driverShutdown_world]
  simp only [ite_eq_left_iff, reduceCtorEq, imp_false, not_not, List.any_eq_true, mem_all_iff, get_detachAll,
    Option.filter_eq_some_iff, Bool.and_eq_true, Prod.exists]
  constructor
  · rintro ⟨id, v, ⟨p, hget, -⟩, hos, hdata⟩
    exact ⟨p, id, v, hget, hos, hdata⟩
  · rintro ⟨p, id, v, hget, hos, hdata⟩
    exact ⟨id, v, ⟨p, hget, hos⟩, hos, hdata⟩

/-- Behind IRP_MJ_SHUTDOWN the registry has the OS volumes, paused, and no other volume; filters that no data volume
refers to are as they were, and nothing was written. In every later run that carries out no START request for it, an
OS volume keeps its boundary and its store, and its thread writes nothing. An unload is refused exactly when one of
the OS volumes has encrypted data. -/
theorem shutdown_freezes_os_volumes (W : Wire) (P : Primitives) (k : Answers) (w : World) :
    (∀ p, (shutDown W P k w).state.get p = ((w.state.get p).filter (·.2.isOsVolume)).map fun x => (x.1, pauseOne x.2)) ∧
      (∀ f, ¬ PdoMap.DataFilter w.state f → (shutDown W P k w).state.filters f = w.state.filters f) ∧
      (shutDown W P k w).device = w.device ∧
      (∀ p id v, w.state.get p = some (id, v) → v.isOsVolume = true → ∀ later w',
        StepRun.Along (step W P) (Spares W id) (shutDown W P k w) later →
        StepRun.run (step W P) (shutDown W P k w) later = some w' →
          Frozen v.toAttachedVolume id w' ∧ ∀ batchSectors, (sweepVolume P id batchSectors w').device = w'.device) ∧
      ∀ k', driverUnload W P k' true (shutDown W P k w) = none ↔
        ∃ p id v, w.state.get p = some (id, v) ∧ v.isOsVolume = true ∧ v.hasEncryptedData = true := by
  refine ⟨?_, ?_, ?_, ?_, ?_⟩
  · exact get_shutdown W P k w
  · intro f hf
    exact filters_shutdown W P k hf
  · obtain ⟨hdevice, -⟩ := pauseVolumes_spec ((w.state.all.filter (·.2.isOsVolume)).map (·.1)) w
    rw [shutdown_world]
    exact hdevice
  · intro p id v hget hos later w' halong hrun
    have hfrozen : Frozen v.toAttachedVolume id w' := StepRun.run_simulates_along
      (R := fun w (_ : Unit) => Frozen v.toAttachedVolume id w) (t := ()) (fun _ _ => ())
      (fun h hs he => h.step hs he) (frozen_shutdown W P k hget hos) halong hrun
    exact ⟨hfrozen, fun batchSectors => (hfrozen.sweep_self batchSectors).2⟩
  · intro k'
    rw [driverUnload_eq_none_iff]
    simp only [get_shutdown, Option.map_eq_some_iff, Option.filter_eq_some_iff, Prod.exists, Prod.mk.injEq]
    constructor
    · rintro ⟨p, id, v, ⟨id', v', ⟨hget, hos⟩, rfl, rfl⟩, -, hdata⟩
      exact ⟨p, _, v', hget, hos, hdata⟩
    · rintro ⟨p, id, v, hget, hos, hdata⟩
      exact ⟨p, id, pauseOne v, ⟨id, v, ⟨hget, hos⟩, rfl, rfl⟩, hos, hdata⟩

end Whole

end Shutdown
