import VolumeCrypt.PdoMap
import VolumeCrypt.Ownership

/-!
# Interleaved requests

The handlers of `lib/windrv/src/ioctl/dispatch.rs`, the handover mount and `add_device`, cut at
the operations on the registry, on a volume's filter pointer and on an extension, which
are atomic. Requests run in any order. A task is a request in flight: where it stands,
with the locals it still needs. Beside the state a run records which volumes descend
from a PREPARE with `is_os_volume` or from the handover.
-/
namespace DriverRuns

open ByteString VckTypes SectorIo SweepEngine VolumeSweep PrepareLayout DriverState Dispatch Ownership

/-- A request in flight, before its next operation. -/
inductive Task (σ : Type) where
  /-- PREPARE, before the duplicate check. -/
  | prepareCheck (path : String) (isOs : Bool)
  /-- Before the filter is looked up. -/
  | prepareFind (path : String) (isOs : Bool)
  /-- Before the geometry query and the metadata writes of the AddDevice path. -/
  | prepareQuery (path : String) (isOs : Bool) (f : FilterId)
  | prepareInsert (path : String) (isOs : Bool) (f : FilterId)
  | prepareBind (path : String) (isOs : Bool) (f : FilterId) (id : VolId)
  /-- The provisional volume is bound; the outcome of the rest is open. -/
  | prepareSettle (path : String) (isOs : Bool) (f : FilterId) (id : VolId)
  /-- The failed PREPARE has left the registry; `id` is its volume. -/
  | prepareUndo (f : FilterId) (id : VolId)
  /-- PREPARE or ATTACH between `remove` and `insert`; `old` is the volume that was replaced. -/
  | completeInsert (path : String) (isOs : Bool) (source : AttachSource) (f : Option FilterId) (old : VolId)
      (o : Opened σ)
  | completeBind (path : String) (f : Option FilterId) (old id : VolId)
  /-- ATTACH, before the provisional volume is looked up. -/
  | attachGet (path : String)
  | attachLoad (path : String) (id : VolId)
  /-- Before the probe, `on_attach` and the replacement. -/
  | attachOpen (path : String) (id : VolId) (f : Option FilterId)
  /-- DETACH, before the check. -/
  | detachCheck (path : String)
  /-- DETACH_ALL, before the snapshot. -/
  | detachAll
  /-- Volumes still to be removed, as the check or the snapshot saw them. -/
  | detachRemove (keepFilter : Bool) (todo : List (String × Option VolId))
  /-- The volume has left the registry; `f` is the filter it referred to. -/
  | detachSwap (keepFilter : Bool) (id : VolId) (f : Option FilterId) (rest : List (String × Option VolId))
  | detachTeardown (keepFilter : Bool) (id : VolId) (f : Option FilterId) (rest : List (String × Option VolId))
  /-- The handover mount, before the check of the extension. -/
  | handoverCheck (f : FilterId)
  | handoverOpen (f : FilterId) (lower : DeviceId)
  | handoverInsert (f : FilterId) (path : String) (o : Opened σ)
  | handoverResume (f : FilterId) (path : String) (id : VolId)
  | handoverBind (f : FilterId) (path : String) (id : VolId)
  | addDeviceCreate (k : AddDeviceAnswers)
  | addDevicePush (e : PdoFilterEntry)

/-- What the environment decides at a step. -/
inductive Choice (σ : Type) where
  | go
  /-- An early exit before anything was changed. -/
  | exit
  | found (f : FilterId)
  | create (lower : DeviceId)
  | provisional (sectorSize : UInt32) (layout : ReplicaLayout)
  | keep
  | fail (undo : Bool)
  | complete (o : Opened σ)
  | resume (S : EncryptedOffsetStore σ) (d : Device)
  | lockFailed

/-- What happens to the engine of a volume. -/
inductive EngineOp (σ : Type) where
  | startEncrypt (S : EncryptedOffsetStore σ) (d : Device)
  | startDecrypt (S : EncryptedOffsetStore σ) (d : Device)
  | sweep (S : EncryptedOffsetStore σ) (batchSectors : UInt64) (d : Device)

inductive Event (σ : Type) where
  | arrive (i : Nat) (t : Task σ)
  | act (i : Nat) (x : Choice σ)
  | engine (id : VolId) (op : EngineOp σ)

structure Config (σ : Type) where
  state : State σ
  tasks : Nat → Option (Task σ)
  /-- The volume descends from a PREPARE with `is_os_volume`, or from the handover. -/
  os : VolId → Bool

section Machine

variable {σ : Type}

/-- A request as it arrives. -/
def Task.Initial : Task σ → Bool
  | .prepareCheck _ _ | .attachGet _ | .detachCheck _ | .detachAll | .handoverCheck _ | .addDeviceCreate _ => true
  | _ => false

def EngineOp.apply (op : EngineOp σ) (v : AttachedVolume (OffsetStore σ)) : AttachedVolume (OffsetStore σ) :=
  match op with
  | .startEncrypt S d =>
    let (encryption, store, _) := EncryptionEngine.startEncrypt (DriverState.offsetStore S) v.encryption v.offsetStore d
    { v with encryption, offsetStore := store }
  | .startDecrypt S d =>
    let (encryption, store, _) := EncryptionEngine.startDecrypt (DriverState.offsetStore S) v.encryption v.offsetStore d
    { v with encryption, offsetStore := store }
  | .sweep S batchSectors d => (v.sweepStep (DriverState.offsetStore S) batchSectors d).2.1

namespace Config

def put (c : Config σ) (i : Nat) (t : Option (Task σ)) : Config σ := { c with tasks := Function.update c.tasks i t }

@[simp] theorem put_state (c : Config σ) (i : Nat) (t : Option (Task σ)) : (c.put i t).state = c.state := rfl

def withState (c : Config σ) (s : State σ) : Config σ := { c with state := s }

/-- `insert` of a new volume, with its descent. -/
def insert (c : Config σ) (v : Volume σ) (isOs : Bool) : VolId × Config σ :=
  (c.state.nextVolume,
    { c with state := (c.state.insert v).2, os := Function.update c.os c.state.nextVolume isOs })

end Config

def sourceOf (isOs : Bool) : AttachSource := if isOs then .handover else .ioctl

/-- What the snapshot of DETACH_ALL lists. -/
def dataVolumes (s : State σ) : List (String × Option VolId) :=
  (s.all.filter fun x => !x.2.isOsVolume).map fun x => (x.2.volumePath, some x.1)

/-- The filter can be what `find_filter_for_volume` returns. -/
def Findable (s : State σ) (f : FilterId) : Prop := (∃ e ∈ s.pdoFilters, e.filterDo = f) ∨ s.filters f ≠ none

instance (s : State σ) (f : FilterId) : Decidable (Findable s f) :=
  inferInstanceAs (Decidable ((∃ e ∈ s.pdoFilters, e.filterDo = f) ∨ s.filters f ≠ none))

/-- The next operation of a task. -/
def act (c : Config σ) (i : Nat) : Task σ → Choice σ → Option (Config σ)
  | .prepareCheck path isOs, .go =>
    some (c.put i (if (c.state.get path).isSome then none else some (.prepareFind path isOs)))
  | .prepareFind _ _, .exit => some (c.put i none)
  | .prepareFind path isOs, .found f =>
    if Findable c.state f then some (c.put i (some (.prepareQuery path isOs f))) else none
  | .prepareFind path isOs, .create lower =>
    let (f, s) := c.state.createFilter lower
    some ((c.withState s).put i (some (.prepareInsert path isOs f)))
  | .prepareQuery _ _ _, .exit => some (c.put i none)
  | .prepareQuery path isOs f, .go => some (c.put i (some (.prepareInsert path isOs f)))
  | .prepareInsert path isOs f, .provisional sectorSize layout =>
    let (id, c) := c.insert (provisional path sectorSize layout (sourceOf isOs) f) isOs
    some (c.put i (some (.prepareBind path isOs f id)))
  | .prepareBind path isOs f id, .go =>
    some ((c.withState (c.state.filterBindVolume f id)).put i (some (.prepareSettle path isOs f id)))
  | .prepareSettle _ _ _ _, .keep => some (c.put i none)
  | .prepareSettle path _ f id, .fail undo =>
    if undo then some ((c.withState (c.state.erase path)).put i (some (.prepareUndo f id)))
    else some (c.put i none)
  | .prepareSettle path isOs f id, .complete o =>
    some ((c.withState (c.state.erase path)).put i
      (some (.completeInsert path isOs (sourceOf isOs) (some f) id o)))
  | .prepareUndo f _, .go => some ((c.withState (c.state.detachFilter f)).put i none)
  | .completeInsert path isOs source f old o, .go =>
    let (id, c) := c.insert (o.complete path source f) isOs
    some (c.put i (some (.completeBind path f old id)))
  | .completeBind _ f _ id, .go => some ((c.withState (rebindOn f id c.state)).put i none)
  | .attachGet path, .go =>
    match c.state.get path with
    | none => some (c.put i none)
    | some (id, v) => some (c.put i (if v.hasCipher then none else some (.attachLoad path id)))
  | .attachLoad path id, .go => some (c.put i (some (.attachOpen path id (filterOf c.state id))))
  | .attachOpen _ _ _, .exit => some (c.put i none)
  | .attachOpen path id f, .complete o =>
    some ((c.withState (c.state.erase path)).put i (some (.completeInsert path (c.os id) .ioctl f id o)))
  | .detachCheck path, .go =>
    some (c.put i (if detachRefused c.state path then none
      else some (.detachRemove true [(path, (c.state.get path).map (·.1))])))
  | .detachAll, .go => some (c.put i (some (.detachRemove false (dataVolumes c.state))))
  | .detachRemove _ [], .go => some (c.put i none)
  | .detachRemove keepFilter ((path, _) :: rest), .go =>
    match c.state.get path with
    | none => some (c.put i (some (.detachRemove keepFilter rest)))
    | some (id, v) =>
      some ((c.withState (c.state.erase path)).put i (some (.detachSwap keepFilter id v.filterDevice rest)))
  | .detachSwap keepFilter id _ rest, .go =>
    let (f, s) := c.state.swapFilterDevice id
    some ((c.withState s).put i (some (.detachTeardown keepFilter id f rest)))
  | .detachTeardown true _ _ _, .lockFailed => some (c.put i none)
  | .detachTeardown keepFilter _ f rest, .go =>
    some ((c.withState (teardown keepFilter f c.state)).put i (some (.detachRemove keepFilter rest)))
  | .handoverCheck f, .go =>
    match c.state.filters f with
    | none => some (c.put i none)
    | some ext =>
      some (c.put i (if ext.volume.isSome || c.state.handover.isNone then none
        else some (.handoverOpen f ext.lowerDevice)))
  | .handoverOpen _ _, .exit => some (c.put i none)
  | .handoverOpen f lower, .complete o =>
    some (c.put i (some (.handoverInsert f (handoverPath c.state f lower) o)))
  | .handoverInsert f path o, .go =>
    let (id, c) := c.insert (o.complete path .handover (some f)) true
    some (c.put i (some (.handoverResume f path id)))
  | .handoverResume f path id, .resume S d =>
    some ((c.withState (c.state.modifyAttached id (resumeVolume S d))).put i (some (.handoverBind f path id)))
  | .handoverBind f _ id, .go => some ((c.withState (c.state.filterBindVolume f id)).put i none)
  | .addDeviceCreate k, .go =>
    match k.attach with
    | .error _ => some (c.put i none)
    | .ok lower =>
      let (f, s) := c.state.createFilter lower
      some ((c.withState s).put i (some (.addDevicePush ⟨k.pdo, f, lower, k.pdoName⟩)))
  | .addDevicePush e, .go => some ((c.withState (c.state.addPdoFilter e)).put i none)
  | _, _ => none

def step (c : Config σ) : Event σ → Option (Config σ)
  | .arrive i t => if c.tasks i = none ∧ t.Initial = true then some (c.put i (some t)) else none
  | .act i x => (c.tasks i).bind fun t => act c i t x
  | .engine id op => some (c.withState (c.state.modifyAttached id op.apply))

/-- Nothing is in flight. -/
def Quiescent (c : Config σ) : Prop := ∀ i, c.tasks i = none

/-- Driver load. -/
def Config.loaded (σ : Type) (handover : Option (Fixed 16)) : Config σ :=
  ⟨.loaded σ handover, fun _ => none, fun _ => false⟩

end Machine

/-! ## Windows of tasks -/

section Windows

variable {σ : Type}

/-- What a task holds between its first change and its last. -/
def Task.window : Task σ → Window
  | .prepareBind path _ f id | .handoverResume f path id | .handoverBind f path id => .fresh path f id
  | .prepareSettle path _ f id => .settled path f id
  | .prepareUndo f id => .orphan f id
  | .completeInsert path _ _ (some f) old _ => .vacant path f old
  | .completeBind path (some f) old id => .renewed path f old id
  | .detachSwap _ id (some f) _ => .leaving f id
  | .detachTeardown _ id (some f) _ => .orphan f id
  | _ => .idle

/-- A task that changes a volume knows its filter. -/
def Task.Proper : Task σ → Prop
  | .completeInsert _ _ _ none _ _ | .completeBind _ none _ _ | .detachSwap _ _ none _ | .detachTeardown _ _ none _ =>
    False
  | _ => True

def windowOf (t : Option (Task σ)) : Window := t.elim .idle Task.window

def windows (c : Config σ) (i : Nat) : Window := windowOf (c.tasks i)

/-- The path and the filter are free, and no other request is changing them. -/
structure TakesFree (c : Config σ) (i : Nat) (path : String) (f : FilterId) : Prop where
  entry : c.state.entries[path]? = none
  unbound : Unbound c.state f
  path : ¬ HeldBut Window.path (windows c) i path
  filter : ¬ HeldBut Window.filter (windows c) i f

/-- A request starts its changes only on what no other is changing and while what it has looked up still
holds; it takes a filter only when that has no volume, and no DETACH fails to lock its volume. -/
def Guarded (c : Config σ) : Event σ → Prop
  | .act i x =>
    match c.tasks i, x with
    | some (.prepareInsert path _ f), _ => TakesFree c i path f
    | some (.handoverInsert f path _), _ => TakesFree c i path f
    | some (.attachOpen path id f), .complete _ => c.state.entries[path]? = some id ∧ filterOf c.state id = f ∧
        ¬ HeldBut Window.path (windows c) i path
    | some (.detachRemove _ ((path, _) :: _)), _ => ¬ HeldBut Window.path (windows c) i path
    | some (.detachTeardown _ _ _ _), .lockFailed => False
    | _, _ => True
  | _ => True

structure Inv (c : Config σ) : Prop where
  owned : Owned (windows c) c.state
  proper : ∀ {i t}, c.tasks i = some t → t.Proper

variable {c c' : Config σ} {i : Nat} {t : Task σ} {x : Choice σ}

/-- The task table changes at `i`, and the state as the windows allow. -/
theorem Inv.put {c₁ : Config σ} {u : Option (Task σ)} (h : Inv c) (htasks : c₁.tasks = c.tasks)
    (ho : Owned (Function.update (windows c) i (windowOf u)) c₁.state) (hu : ∀ t, u = some t → t.Proper) :
    Inv (c₁.put i u) := by
  have hw : windows (c₁.put i u) = Function.update (windows c) i (windowOf u) := by
    funext j
    by_cases hj : j = i
    · subst hj
      simp [windows, Config.put]
    · simp [windows, Config.put, hj, htasks]
  refine ⟨hw ▸ ho, ?_⟩
  intro j t ht
  by_cases hj : j = i
  · subst hj
    exact hu t (by simpa [Config.put] using ht)
  · exact h.proper (i := j) (by simpa [Config.put, hj, htasks] using ht)

theorem windows_eq (ht : c.tasks i = some t) : windows c i = t.window := by
  rw [windows, ht]
  rfl

/-- A task whose window stays, with a change that touches nothing. -/
theorem Inv.putStay {c₁ : Config σ} {u : Option (Task σ)} (h : Inv c) (ht : c.tasks i = some t)
    (htasks : c₁.tasks = c.tasks) (htouch : Touches none none c.state c₁.state) (hw : windowOf u = t.window)
    (hp : ∀ t, u = some t → t.Proper) : Inv (c₁.put i u) := by
  apply h.put htasks _ hp
  rw [hw, ← windows_eq ht, Function.update_eq_self]
  exact h.owned.stay htouch

/-- A task that holds nothing before and after, and changes nothing. -/
theorem Inv.putIdle {u : Option (Task σ)} (h : Inv c) (ht : c.tasks i = some t) (hw : t.window = .idle)
    (hu : windowOf u = .idle) (hp : ∀ t, u = some t → t.Proper) : Inv (c.put i u) :=
  h.putStay ht rfl (.refl ..) (hu.trans hw.symm) hp

/-- Taking the entry at a path that no other request is changing, and erasing it. -/
theorem Inv.takeEntry {path : String} {id : VolId} (h : Inv c) (hw : windows c i = .idle)
    (he : c.state.entries[path]? = some id) (hfree : ¬ HeldBut Window.path (windows c) i path) :
    ∃ f, filterOf c.state id = some f ∧
      Owned (Function.update (windows c) i (.vacant path f id)) (c.state.erase path) ∧
      Owned (Function.update (windows c) i (.leaving f id)) (c.state.erase path) := by
  obtain ⟨f, hf, ho⟩ := h.owned.claim hw he hfree
  have hset : Function.update (windows c) i (.settled path f id) i = .settled path f id := Function.update_self ..
  have hvac := ho.eraseSettled hset
  have hleave := ho.eraseLeaving hset
  rw [Function.update_idem] at hvac hleave
  exact ⟨f, hf, hvac, hleave⟩

theorem not_boundTo_detachFilter (s : State σ) (f : FilterId) (id : VolId) : ¬ BoundTo (s.detachFilter f) f id := by
  rintro ⟨ext, hext, -⟩
  rw [detachFilter_filters, Function.update_self] at hext
  cases hext

theorem not_boundTo_unbindFilter (s : State σ) (f : FilterId) (id : VolId) : ¬ BoundTo (s.unbindFilter f) f id := by
  rintro ⟨ext, hext, hv⟩
  rw [unbindFilter_filters, Function.update_self] at hext
  obtain ⟨ext', -, rfl⟩ := Option.map_eq_some_iff.mp hext
  cases hv

/-- The step of a task keeps the invariant. -/
theorem act_inv (h : Inv c) (ht : c.tasks i = some t) (hg : Guarded c (.act i x)) (hs : act c i t x = some c') :
    Inv c' := by
  have hwin := windows_eq ht
  have hproper := h.proper ht
  unfold act at hs
  simp only [Guarded, ht] at hg
  split at hs
  -- PREPARE
  · obtain rfl := Option.some.inj hs
    refine h.putIdle ht rfl ?_ ?_ <;> split <;> simp [windowOf, Task.window, Task.Proper]
  · obtain rfl := Option.some.inj hs
    exact h.putIdle ht rfl rfl (by simp)
  · split at hs
    · obtain rfl := Option.some.inj hs
      exact h.putIdle ht rfl rfl (by simp [Task.Proper])
    · cases hs
  · obtain rfl := Option.some.inj hs
    exact h.put rfl (h.owned.create hwin _) (by simp [Task.Proper])
  · obtain rfl := Option.some.inj hs
    exact h.putIdle ht rfl rfl (by simp)
  · obtain rfl := Option.some.inj hs
    exact h.putIdle ht rfl rfl (by simp [Task.Proper])
  · rename_i path isOs f sectorSize layout
    obtain rfl := Option.some.inj hs
    have hfree : TakesFree c i path f := hg
    have ho := h.owned.insertFresh (v := provisional path sectorSize layout (sourceOf isOs) f) hwin rfl hfree.entry
      hfree.unbound hfree.path hfree.filter
    exact h.put rfl ho (by simp [Task.Proper])
  · obtain rfl := Option.some.inj hs
    exact h.put rfl (h.owned.bindFresh hwin) (by simp [Task.Proper])
  · obtain rfl := Option.some.inj hs
    exact h.put rfl (h.owned.release hwin) (by simp)
  · split at hs
    · obtain rfl := Option.some.inj hs
      exact h.put rfl (h.owned.eraseOrphan hwin) (by simp [Task.Proper])
    · obtain rfl := Option.some.inj hs
      exact h.put rfl (h.owned.release hwin) (by simp)
  · obtain rfl := Option.some.inj hs
    exact h.put rfl (h.owned.eraseSettled hwin) (by simp [Task.Proper])
  · obtain rfl := Option.some.inj hs
    exact h.put rfl (h.owned.destroy hwin (touches_detachFilter ..) (not_boundTo_detachFilter _ _)) (by simp)
  · rename_i path isOs source f old o
    obtain rfl := Option.some.inj hs
    cases f with
    | none => exact hproper.elim
    | some f =>
      have ho := h.owned.insertVacant (v := o.complete path source (some f)) hwin rfl
      exact h.put rfl ho (by simp [Task.Proper])
  · rename_i path f old id
    obtain rfl := Option.some.inj hs
    cases f with
    | none => exact hproper.elim
    | some f =>
      have ho := (h.owned.rebind hwin).release (Function.update_self ..)
      rw [Function.update_idem] at ho
      exact h.put rfl ho (by simp)
  -- ATTACH
  · split at hs
    · obtain rfl := Option.some.inj hs
      exact h.putIdle ht rfl rfl (by simp)
    · obtain rfl := Option.some.inj hs
      refine h.putIdle ht rfl ?_ ?_ <;> split <;> simp [windowOf, Task.window, Task.Proper]
  · obtain rfl := Option.some.inj hs
    exact h.putIdle ht rfl rfl (by simp [Task.Proper])
  · obtain rfl := Option.some.inj hs
    exact h.putIdle ht rfl rfl (by simp)
  · rename_i path id f o
    obtain rfl := Option.some.inj hs
    obtain ⟨he, hf, hfree⟩ : c.state.entries[path]? = some id ∧ filterOf c.state id = f ∧
      ¬ HeldBut Window.path (windows c) i path := hg
    obtain ⟨g, hg', hvac, -⟩ := h.takeEntry hwin he hfree
    obtain rfl : some g = f := hg'.symm.trans hf
    exact h.put rfl hvac (by simp [Task.Proper])
  -- DETACH and DETACH_ALL
  · obtain rfl := Option.some.inj hs
    refine h.putIdle ht rfl ?_ ?_ <;> split <;> simp [windowOf, Task.window, Task.Proper]
  · obtain rfl := Option.some.inj hs
    exact h.putIdle ht rfl rfl (by simp [Task.Proper])
  · obtain rfl := Option.some.inj hs
    exact h.putIdle ht rfl rfl (by simp)
  · rename_i keepFilter path seen rest
    have hfree : ¬ HeldBut Window.path (windows c) i path := hg
    split at hs
    · obtain rfl := Option.some.inj hs
      exact h.putIdle ht rfl rfl (by simp [Task.Proper])
    · rename_i id v hget
      obtain rfl := Option.some.inj hs
      obtain ⟨he, hv⟩ := get_eq_some_iff.mp hget
      obtain ⟨f, hf, -, hleave⟩ := h.takeEntry hwin he hfree
      have hvf : v.filterDevice = some f := by simpa [filterOf, hv] using hf
      exact h.put rfl (by rw [hvf]; exact hleave) (by simp [hvf, Task.Proper])
  · rename_i keepFilter id f rest
    obtain rfl := Option.some.inj hs
    cases f with
    | none => exact hproper.elim
    | some f =>
      obtain ⟨-, hr, -⟩ : (Window.leaving f id).Ok c.state := by
        have hok := h.owned.ok i
        rwa [hwin] at hok
      have hswap : (c.state.volumes id).bind (·.filterDevice) = some f := hr
      have ho := h.owned.swap hwin
      refine h.put rfl ?_ ?_
      · rw [hswap]
        exact ho
      · simp [hswap, Task.Proper]
  · exact hg.elim
  · rename_i keepFilter id f rest
    obtain rfl := Option.some.inj hs
    cases f with
    | none => exact hproper.elim
    | some f =>
      cases keepFilter with
      | true =>
        exact h.put rfl (h.owned.destroy hwin (touches_modifyFilter ..) (not_boundTo_unbindFilter _ _))
          (by simp [Task.Proper])
      | false =>
        exact h.put rfl (h.owned.destroy hwin (touches_detachFilter ..) (not_boundTo_detachFilter _ _))
          (by simp [Task.Proper])
  -- the handover mount
  · split at hs
    · obtain rfl := Option.some.inj hs
      exact h.putIdle ht rfl rfl (by simp)
    · obtain rfl := Option.some.inj hs
      refine h.putIdle ht rfl ?_ ?_ <;> split <;> simp [windowOf, Task.window, Task.Proper]
  · obtain rfl := Option.some.inj hs
    exact h.putIdle ht rfl rfl (by simp)
  · obtain rfl := Option.some.inj hs
    exact h.putIdle ht rfl rfl (by simp [Task.Proper])
  · rename_i f path o
    obtain rfl := Option.some.inj hs
    have hfree : TakesFree c i path f := hg
    have ho := h.owned.insertFresh (v := o.complete path .handover (some f)) hwin rfl hfree.entry hfree.unbound
      hfree.path hfree.filter
    exact h.put rfl ho (by simp [Task.Proper])
  · obtain rfl := Option.some.inj hs
    exact h.putStay ht rfl (touches_modifyAttached ..) rfl (by simp [Task.Proper])
  · obtain rfl := Option.some.inj hs
    have ho := (h.owned.bindFresh hwin).release (Function.update_self ..)
    rw [Function.update_idem] at ho
    exact h.put rfl ho (by simp)
  -- AddDevice
  · split at hs
    · obtain rfl := Option.some.inj hs
      exact h.putIdle ht rfl rfl (by simp)
    · obtain rfl := Option.some.inj hs
      exact h.put rfl (h.owned.create hwin _) (by simp [Task.Proper])
  · obtain rfl := Option.some.inj hs
    exact h.putStay ht rfl ⟨fun _ _ => rfl, fun _ _ => rfl, fun _ => .inl rfl, fun _ he => he⟩ rfl (by simp)
  · cases hs

theorem step_inv {e : Event σ} (h : Inv c) (hg : Guarded c e) (hs : step c e = some c') : Inv c' := by
  cases e with
  | arrive i t =>
    simp only [step] at hs
    split at hs
    · rename_i hnew
      obtain rfl := Option.some.inj hs
      have hidle : windows c i = .idle := by rw [windows, hnew.1]; rfl
      have ht : windowOf (some t) = windows c i ∧ t.Proper := by
        cases t <;> simp_all [Task.Initial, windowOf, Task.window, Task.Proper]
      refine h.put rfl ?_ ?_
      · rw [ht.1, Function.update_eq_self]
        exact h.owned
      · rintro t' ⟨⟩
        exact ht.2
    · cases hs
  | act i x =>
    obtain ⟨t, ht, hact⟩ := Option.bind_eq_some_iff.mp hs
    exact act_inv h ht hg hact
  | engine id op =>
    obtain rfl := Option.some.inj hs
    exact ⟨h.owned.stay (touches_modifyAttached ..), h.proper⟩

theorem inv_loaded (handover : Option (Fixed 16)) : Inv (Config.loaded σ handover) := by
  have hidle : ∀ i, windows (Config.loaded σ handover) i = .idle := fun _ => rfl
  refine ⟨⟨⟨?_, ?_⟩, ?_, ?_, ?_⟩, ?_⟩
  · intro p id he
    simp [Config.loaded, State.loaded] at he
  · rintro f id ⟨ext, hext, -⟩
    cases hext
  · intro i
    rw [hidle]
    trivial
  · intro i p hp
    rw [hidle] at hp
    cases hp
  · intro i f hf
    rw [hidle] at hf
    cases hf
  · intro i t ht
    cases ht

/-- In every run from driver load whose steps are all guarded, whatever the interleaving, each filter has at
most one volume in every quiescent state, and the extensions say the same as the registry. -/
theorem one_volume_per_filter (handover : Option (Fixed 16)) {events : List (Event σ)} {c : Config σ}
    (hrun : StepRun.run step (Config.loaded σ handover) events = some c)
    (hguard : StepRun.Along step Guarded (Config.loaded σ handover) events) (hquiet : Quiescent c) :
    OneVolumePerFilter c.state := by
  have hinv : Inv c := StepRun.run_simulates_along (R := fun c (_ : Unit) => Inv c) (fun u _ => u)
    (fun h hg hs => step_inv h hg hs) (t := ()) (inv_loaded handover) hguard hrun
  have hidle : ∀ i, windows c i = .idle := fun i => by rw [windows, hquiet i]; rfl
  apply hinv.owned.consistent.oneVolumePerFilter
  · rintro p ⟨i, hi⟩
    rw [hidle i] at hi
    cases hi
  · rintro f ⟨i, hi⟩
    rw [hidle i] at hi
    cases hi

end Windows

section Sample

def addDeviceRun {σ : Type} (i : Nat) : List (Event σ) :=
  [.arrive i (.addDeviceCreate ⟨1, "\\Device\\HarddiskVolume5", .ok 2⟩), .act i .go, .act i .go]

/-- A PREPARE without key, of a path that resolves to filter `f`. -/
def prepareRun {σ : Type} (i : Nat) (path : String) (f : FilterId) : List (Event σ) :=
  [.arrive i (.prepareCheck path false), .act i .go, .act i (.found f), .act i .go,
    .act i (.provisional 512 ⟨0, 1792, []⟩), .act i .go, .act i .keep]

/-- The configuration behind a run that can be carried out. -/
def after (events : List (Event Unit)) : Config Unit :=
  (StepRun.run step (Config.loaded Unit none) events).getD (Config.loaded Unit none)

/-- `add_device` and a PREPARE of the volume. -/
def preparedRun : List (Event Unit) := addDeviceRun 0 ++ prepareRun 0 "D:" 0

/-- The same with a second PREPARE under another name of the volume. -/
def aliasRun : List (Event Unit) := preparedRun ++ prepareRun 0 "\\\\.\\D:" 0

theorem preparedRun_guarded : StepRun.Along step Guarded (Config.loaded Unit none) preparedRun := by
  refine .cons rfl trivial (.cons rfl trivial (.cons rfl trivial (.cons rfl trivial (.cons rfl trivial
    (.cons rfl trivial (.cons rfl trivial (.cons rfl ?_ (.cons rfl trivial (.cons rfl trivial trivial)))))))))
  refine ⟨by decide +kernel, ⟨_, rfl, rfl⟩, ?_, ?_⟩
  · rintro ⟨j, hj, hheld⟩
    cases j with
    | zero => exact hj rfl
    | succ j => cases hheld
  · rintro ⟨j, hj, hheld⟩
    cases j with
    | zero => exact hj rfl
    | succ j => cases hheld

theorem quiescent_preparedRun : Quiescent (after preparedRun) := by
  intro i
  cases i with
  | zero => rfl
  | succ i => rfl

theorem quiescent_aliasRun : Quiescent (after aliasRun) := by
  intro i
  cases i with
  | zero => rfl
  | succ i => rfl

/-- One PREPARE of the volume leaves one volume and one bound filter. -/
theorem one_volume_per_filter_prepared : OneVolumePerFilter (after preparedRun).state := by
  have hrun : StepRun.run step (Config.loaded Unit none) preparedRun = some (after preparedRun) := rfl
  exact one_volume_per_filter none hrun preparedRun_guarded quiescent_preparedRun

/-- Two paths that resolve to one filter: the registry has two volumes for it, and it is bound to one. -/
theorem two_volumes_for_one_filter :
    StepRun.run step (Config.loaded Unit none) aliasRun = some (after aliasRun) ∧ Quiescent (after aliasRun) ∧
      ¬ OneVolumePerFilter (after aliasRun).state := by
  refine ⟨rfl, quiescent_aliasRun, ?_⟩
  intro h
  have hfirst : (after aliasRun).state.entries["D:"]? = some 0 := by decide +kernel
  have hsecond : (after aliasRun).state.entries["\\\\.\\D:"]? = some 1 := by decide +kernel
  have hsame := h.1 hfirst hsecond rfl rfl
  exact absurd hsame (by decide)

end Sample

end DriverRuns
