import VolumeCrypt.DriverRuns

/-!
# The handlers as runs

What a handler of `Dispatch` does in one piece the machine of `DriverRuns` does in several
steps. A call into the driver during which no other request takes a step is a run of the
machine, and it ends in the state that the handler computes.
-/
namespace HandlerRuns

open VckTypes SectorIo SweepEngine PrepareLayout DriverState Dispatch Ownership DriverRuns

section Alone

variable {σ : Type} {c d : Config σ} {i : Nat} {s : State σ}

/-- The task at `i`, with nothing else taking a step, can end with the driver in state `s`. -/
def Finishes (i : Nat) (c : Config σ) (u : Option (DriverRuns.Task σ)) (s : State σ) : Prop :=
  ∃ (xs : List (Choice σ)) (c' : Config σ), StepRun.run step (c.put i u) (xs.map (Event.act i)) = some c' ∧
    c'.state = s ∧ c'.tasks = Function.update c.tasks i none

theorem Finishes.of_state (h : c.state = s) : Finishes i c none s := ⟨[], c.put i none, rfl, h, rfl⟩

theorem Finishes.done (c : Config σ) (i : Nat) : Finishes i c none c.state := .of_state rfl

theorem Finishes.act {t : DriverRuns.Task σ} {u : Option (DriverRuns.Task σ)} (x : Choice σ)
    (hs : act (c.put i (some t)) i t x = some (d.put i u)) (htasks : d.tasks = (c.put i (some t)).tasks)
    (h : Finishes i d u s) : Finishes i c (some t) s := by
  obtain ⟨xs, c', hrun, hstate, htasks'⟩ := h
  refine ⟨x :: xs, c', ?_, hstate, ?_⟩
  · have ht : (c.put i (some t)).tasks i = some t := Function.update_self ..
    apply StepRun.run_cons_eq_some.mpr
    exact ⟨d.put i u, by rw [step, ht, Option.bind_some, hs], hrun⟩
  · rw [htasks', htasks, Config.put, Function.update_idem]

theorem settle_finishes (c : Config σ) (i : Nat) (req : JvckVolumePrepareReq) (f : FilterId) (id : VolId)
    (keep : JvckVolumePrepareResp) (st : Settlement σ) :
    Finishes i c (some (.prepareSettle req.volumePath req.isOsVolume f id)) (settle req f keep st c.state).2 := by
  cases st with
  | keep => exact .act .keep rfl rfl (.done ..)
  | fail e undo =>
    cases undo with
    | false => exact .act (.fail false) rfl rfl (.done ..)
    | true => exact .act (.fail true) rfl rfl (.act .go rfl rfl (.done ..))
  | complete o => exact .act (.complete o) rfl rfl (.act .go rfl rfl (.act .go rfl rfl (.done ..)))

/-- From the insertion of the provisional volume on. -/
theorem insert_finishes (c : Config σ) (i : Nat) (req : JvckVolumePrepareReq) (f : FilterId) (sectorSize : UInt32)
    (layout : ReplicaLayout) (keep : JvckVolumePrepareResp) (st : Settlement σ) :
    Finishes i c (some (.prepareInsert req.volumePath req.isOsVolume f))
      (settle req f keep st
        (bindProvisional (provisional req.volumePath sectorSize layout req.attachSource f) f c.state)).2 :=
  .act (.provisional sectorSize layout) rfl rfl (.act .go rfl rfl (settle_finishes ..))

theorem findPdoFilterByName_findable {f : FilterId} {lower : DeviceId} {name : String}
    (h : s.findPdoFilterByName name = some (f, lower)) : Findable s f := by
  obtain ⟨e, he, heq⟩ := Option.map_eq_some_iff.mp h
  exact .inl ⟨e, List.mem_of_find?_eq_some he, congrArg Prod.fst heq⟩

theorem findPdoFilter_findable {f : FilterId} {lower : DeviceId} {dev : DeviceId}
    (h : s.findPdoFilter dev = some (f, lower)) : Findable s f := by
  obtain ⟨e, he, heq⟩ := Option.map_eq_some_iff.mp h
  exact .inl ⟨e, List.mem_of_find?_eq_some he, congrArg Prod.fst heq⟩

theorem findFilterForVolume_findable {k : FindAnswers} {ntPath : String} {f : FilterId} {lower : DeviceId}
    (h : findFilterForVolume k ntPath s = some (f, lower)) : Findable s f := by
  unfold findFilterForVolume at h
  split at h
  · cases h
  · simp only [Option.orElse_eq_orElse, Option.orElse_eq_or, Option.or_eq_some_iff, Option.bind_eq_some_iff] at h
    rcases h with h | ⟨-, h | ⟨-, ⟨dev, -, h⟩ | ⟨-, h | ⟨-, ⟨dev, -, h⟩ | ⟨-, h⟩⟩⟩⟩⟩
    · split at h
      · cases h
      · exact findPdoFilterByName_findable h
    · exact findPdoFilterByName_findable h
    · exact findPdoFilter_findable h
    · exact findPdoFilter_findable h
    · exact findPdoFilter_findable h
    · obtain ⟨g, -, hg⟩ := Option.bind_eq_some_iff.mp h
      obtain ⟨ext, hext, heq⟩ := Option.map_eq_some_iff.mp hg
      obtain rfl : g = f := congrArg Prod.fst heq
      exact .inr (by rw [hext]; exact Option.some_ne_none ext)

/-- The AddDevice path of PREPARE. -/
theorem query_finishes (c : Config σ) (i : Nat) (k : PrepareAnswers σ) (req : JvckVolumePrepareReq) (f : FilterId) :
    Finishes i c (some (.prepareQuery req.volumePath req.isOsVolume f))
      (handleJvckPrepareAddDevicePath k req f c.state).2 := by
  have hexit : Finishes i c (some (.prepareQuery req.volumePath req.isOsVolume f)) c.state :=
    .act .exit rfl rfl (.done ..)
  unfold handleJvckPrepareAddDevicePath
  split
  · exact hexit
  · split
    · exact hexit
    · split
      · exact hexit
      · exact .act .go rfl rfl (insert_finishes ..)

theorem prepare_finishes (c : Config σ) (i : Nat) (k : PrepareAnswers σ) (req : JvckVolumePrepareReq) :
    Finishes i c (some (.prepareCheck req.volumePath req.isOsVolume)) (handleJvckPrepare k (.ok req) c.state).2 := by
  refine .act (d := c.put i _) (u := if (c.state.get req.volumePath).isSome then none
    else some (.prepareFind req.volumePath req.isOsVolume)) .go rfl rfl ?_
  simp only [handleJvckPrepare]
  by_cases hget : (c.state.get req.volumePath).isSome = true
  · rw [if_pos hget, if_pos hget]
    exact .done ..
  · rw [if_neg hget, if_neg hget]
    split
    · exact .act .exit rfl rfl (.done ..)
    · split
      · rename_i f lower hfind
        exact .act (.found f) (if_pos (findFilterForVolume_findable hfind)) rfl (query_finishes ..)
      · simp only [handleJvckPrepareFallback]
        split
        · exact .act .exit rfl rfl (.done ..)
        · split
          · exact .act .exit rfl rfl (.done ..)
          · exact .act (.create _) rfl rfl (insert_finishes ..)

theorem attach_finishes (c : Config σ) (i : Nat) (k : AttachAnswers σ) (req : JvckVolumeAttachReq) :
    Finishes i c (some (.attachGet req.volumePath)) (handleJvckAttach k (.ok req) c.state).2 := by
  simp only [handleJvckAttach]
  cases hget : c.state.get req.volumePath with
  | none =>
    refine .act (d := c.put i _) (u := none) .go ?_ rfl (.done ..)
    simp [act, Config.put, hget]
  | some x =>
    obtain ⟨id, old⟩ := x
    obtain ⟨-, hv⟩ := get_eq_some_iff.mp hget
    have hf : filterOf c.state id = old.filterDevice := by rw [filterOf, hv, Option.bind_some]
    refine .act (d := c.put i _) (u := if old.hasCipher then none else some (.attachLoad req.volumePath id)) .go
      ?_ rfl ?_
    · simp [act, Config.put, hget]
    · dsimp only
      split
      · exact .done ..
      · refine .act .go rfl rfl ?_
        change Finishes i _ (some (.attachOpen req.volumePath id (filterOf c.state id))) _
        rw [hf]
        split
        · exact .act .exit rfl rfl (.done ..)
        · rename_i o _
          exact .act (.complete o) rfl rfl (.act .go rfl rfl (.act .go rfl rfl (.done ..)))

/-- Up to the teardown of the next volume of DETACH or DETACH_ALL. -/
theorem remove_finishes (c : Config σ) (i : Nat) (path : String) (keepFilter : Bool) (seen : Option VolId)
    (rest : List (String × Option VolId))
    (hnone : c.state.get path = none → Finishes i (c.put i (some (.detachRemove keepFilter ((path, seen) :: rest))))
      (some (.detachRemove keepFilter rest)) s)
    (hsome : ∀ {id v} (d : Config σ), c.state.get path = some (id, v) →
      d.state = ((c.state.erase path).swapFilterDevice id).2 →
      Finishes i d (some (.detachTeardown keepFilter id v.filterDevice rest)) s) :
    Finishes i c (some (.detachRemove keepFilter ((path, seen) :: rest))) s := by
  cases hget : c.state.get path with
  | none =>
    refine .act (d := c.put i _) .go ?_ rfl (hnone hget)
    simp [act, Config.put, hget]
  | some x =>
    obtain ⟨id, v⟩ := x
    obtain ⟨-, hv⟩ := get_eq_some_iff.mp hget
    refine .act (d := (c.put i _).withState (c.state.erase path))
      (u := some (.detachSwap keepFilter id v.filterDevice rest)) .go ?_ rfl ?_
    · simp [act, Config.put, Config.withState, hget]
    · have hswap : ((c.state.erase path).swapFilterDevice id).1 = v.filterDevice := swapFilterDevice_fst hv
      refine .act .go rfl rfl ?_
      change Finishes i _ (some (.detachTeardown keepFilter id ((c.state.erase path).swapFilterDevice id).1 rest)) s
      rw [hswap]
      exact hsome _ hget rfl

theorem detach_finishes (c : Config σ) (i : Nat) (k : DetachAnswers) (req : VolumeRequest) :
    Finishes i c (some (.detachCheck req.volumePath)) (handleDetach k (.ok req) c.state).2 := by
  refine .act (d := c.put i _) (u := if detachRefused c.state req.volumePath then none
    else some (.detachRemove true [(req.volumePath, (c.state.get req.volumePath).map (·.1))])) .go rfl rfl ?_
  simp only [handleDetach]
  by_cases href : detachRefused c.state req.volumePath = true
  · rw [if_pos href, if_pos href]
    exact .done ..
  · rw [if_neg href, if_neg href]
    apply remove_finishes
    · intro hget
      rw [Config.put_state] at hget
      rw [detachVolume_of_none k _ _ hget]
      exact .act .go rfl rfl (.done ..)
    · intro id v d hget hstate
      rw [Config.put_state] at hget
      rw [detachVolume_of_some k _ _ hget]
      split
      · exact .act .lockFailed rfl rfl (.of_state hstate)
      · exact .act .go rfl rfl (.act .go rfl rfl (.of_state (congrArg (teardown true _) hstate)))

theorem detachAll_finishes (c : Config σ) (i : Nat) (k : String → DetachAnswers) :
    Finishes i c (some .detachAll) (handleDetachAllVolumes k c.state).2 := by
  have hloop : ∀ (todo : List (String × Option VolId)) (c : Config σ), Finishes i c (some (.detachRemove false todo))
      ((todo.map (·.1)).foldl (fun s path => (detachVolumeWithDismount (k path) path true false s).2) c.state) := by
    intro todo
    induction todo with
    | nil => exact fun c => .act .go rfl rfl (.done ..)
    | cons x todo ih =>
      intro c
      obtain ⟨path, seen⟩ := x
      rw [List.map_cons, List.foldl_cons]
      apply remove_finishes
      · intro hget
        rw [detachVolume_of_none (k path) _ _ hget]
        exact ih _
      · intro id v d hget hstate
        rw [detachVolume_of_some (k path) _ _ hget, if_neg (by simp), ← hstate]
        exact .act .go rfl rfl (ih _)
  have hpaths : dataPaths c.state = (dataVolumes c.state).map (·.1) := by
    simp [dataPaths, dataVolumes, Function.comp_def]
  rw [handleDetachAllVolumes, hpaths]
  exact .act .go rfl rfl (hloop _ _)

theorem handover_finishes (c : Config σ) (i : Nat) (S : EncryptedOffsetStore σ) (dev : Device) (k : HandoverAnswers σ)
    (f : FilterId) : Finishes i c (some (.handoverCheck f)) (tryMountHandoverVolume S dev k f c.state) := by
  unfold tryMountHandoverVolume
  cases hf : c.state.filters f with
  | none =>
    refine .act (d := c.put i _) (u := none) .go ?_ rfl (.done ..)
    simp [act, Config.put, hf]
  | some ext =>
    refine .act (d := c.put i _) (u := if ext.volume.isSome || c.state.handover.isNone then none
      else some (.handoverOpen f ext.lowerDevice)) .go ?_ rfl ?_
    · simp [act, Config.put, hf]
    · dsimp only
      by_cases hv : ext.volume.isSome = true
      · rw [if_pos (by rw [hv, Bool.true_or]), if_pos hv]
        exact .done ..
      · rw [if_neg hv]
        cases hh : c.state.handover with
        | none =>
          have hopen : openHandover k c.state = none := by rw [openHandover, hh]; rfl
          rw [hopen, if_pos (by simp)]
          exact .done ..
        | some guid =>
          rw [if_neg (by simpa using hv)]
          split
          · exact .act .exit rfl rfl (.done ..)
          · rename_i o _
            exact .act (.complete o) rfl rfl (.act .go rfl rfl (.act (.resume S dev) rfl rfl
              (.act .go rfl rfl (.done ..))))

theorem addDevice_finishes (c : Config σ) (i : Nat) (k : AddDeviceAnswers) :
    Finishes i c (some (.addDeviceCreate k)) (addDevice k c.state) := by
  unfold addDevice
  cases hk : k.attach with
  | error e =>
    refine .act (d := c.put i _) (u := none) .go ?_ rfl (.done ..)
    simp [act, hk]
  | ok lower =>
    refine .act (d := (c.put i _).withState (c.state.createFilter lower).2)
      (u := some (.addDevicePush ⟨k.pdo, c.state.nextFilter, lower, k.pdoName⟩)) .go ?_ rfl ?_
    · simp [act, hk, Config.put]
    · exact .act .go rfl rfl (.done ..)

/-- Where nothing else is taking a step the machine can do what the handlers do. -/
theorem Finishes.runs {t : DriverRuns.Task σ} (h : Finishes i c (some t) s) (hi : c.tasks i = none)
    (ht : t.Initial = true) :
    ∃ (events : List (Event σ)) (c' : Config σ), StepRun.run step c events = some c' ∧ c'.state = s ∧
      c'.tasks = c.tasks := by
  obtain ⟨xs, c', hrun, hstate, htasks⟩ := h
  refine ⟨.arrive i t :: xs.map (Event.act i), c', ?_, hstate, ?_⟩
  · exact StepRun.run_cons_eq_some.mpr ⟨c.put i (some t), if_pos ⟨hi, ht⟩, hrun⟩
  · rw [htasks, ← hi, Function.update_eq_self]

/-- Every call into the driver is a run of the machine that leaves the other requests where they are. -/
theorem call_runs (x : PdoMap.Call σ) (hi : c.tasks i = none) :
    ∃ (events : List (Event σ)) (c' : Config σ), StepRun.run step c events = some c' ∧ c'.state = x.apply c.state ∧
      c'.tasks = c.tasks := by
  have hfail : ∃ (events : List (Event σ)) (c' : Config σ), StepRun.run step c events = some c' ∧
      c'.state = c.state ∧ c'.tasks = c.tasks := ⟨[], c, rfl, rfl, rfl⟩
  cases x with
  | addDevice k => exact (addDevice_finishes c i k).runs hi rfl
  | detachAll k => exact (detachAll_finishes c i k).runs hi rfl
  | request r =>
    cases r with
    | prepare k input =>
      cases input with
      | error e => exact hfail
      | ok req => exact (prepare_finishes c i k req).runs hi rfl
    | attach k input =>
      cases input with
      | error e => exact hfail
      | ok req => exact (attach_finishes c i k req).runs hi rfl
    | detach k input =>
      cases input with
      | error e => exact hfail
      | ok req => exact (detach_finishes c i k req).runs hi rfl

/-- So is the handover mount. -/
theorem handover_runs (S : EncryptedOffsetStore σ) (dev : Device) (k : HandoverAnswers σ) (f : FilterId)
    (hi : c.tasks i = none) :
    ∃ (events : List (Event σ)) (c' : Config σ), StepRun.run step c events = some c' ∧
      c'.state = tryMountHandoverVolume S dev k f c.state ∧ c'.tasks = c.tasks :=
  (handover_finishes c i S dev k f).runs hi rfl

end Alone

end HandlerRuns
