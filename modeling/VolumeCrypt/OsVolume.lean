import VolumeCrypt.DriverRuns

/-!
# The encrypted OS volume

An encrypted OS volume must stay behind its filter, or the live system reads ciphertext.
The handlers refuse to detach it: DETACH by a check of the cached boundary, DETACH_ALL
by leaving out what is marked as handover. Both come before the filter is touched, and
PREPARE does not look at all at what its filter is bound to. Here is when the interleaved
handlers nevertheless keep every such volume covered.
-/
namespace OsVolume

open ByteString VckTypes SectorIo CipherTraits SweepEngine VolumeSweep PrepareLayout DriverState Dispatch Ownership
open DriverRuns

section Exposure

variable {σ : Type}

/-- The filter is bound to an OS volume with encrypted sectors. -/
def Protected (c : Config σ) (f : FilterId) (id : VolId) : Prop :=
  BoundTo c.state f id ∧ c.os id = true ∧ ∃ v, c.state.volumes id = some v ∧ 0 < v.encryption.encryptedBoundary

/-- The filter is still bound to the volume, or to one with a cipher. -/
def Covered (s : State σ) (f : FilterId) (id : VolId) : Prop :=
  ∃ id', BoundTo s f id' ∧ (id' = id ∨ ∃ v, s.volumes id' = some v ∧ v.hasCipher = true)

/-- The step unbinds or deletes the filter of an encrypted OS volume, or binds it to a volume without a cipher. -/
def Exposes (c : Config σ) (e : Event σ) : Prop :=
  ∃ f id c', Protected c f id ∧ step c e = some c' ∧ ¬ Covered c'.state f id

/-! ## The condition -/

/-- What a request takes for granted about a volume that may be an OS volume. -/
inductive Reliance where
  /-- It exists. -/
  | known
  /-- Its boundary is 0, as long as no sweep moves it. -/
  | still
  /-- Its boundary is 0 and there is no cipher to move it. -/
  | plain
  deriving DecidableEq

def Reliance.Meets (v : Volume σ) : Reliance → Prop
  | known => True
  | still => v.encryption.encryptedBoundary = 0
  | plain => v.encryption.encryptedBoundary = 0 ∧ v.hasCipher = false

/-- DETACH has checked its volume, DETACH_ALL has seen that its volumes are no OS volumes. -/
def detachReliance (keepFilter : Bool) : Reliance := if keepFilter then .still else .plain

/-- The task relies on `r` for the volume. -/
def Relies : DriverRuns.Task σ → Reliance → VolId → Prop
  | .prepareBind _ _ _ id', r, id | .prepareSettle _ _ _ id', r, id | .prepareUndo _ id', r, id
  | .completeInsert _ _ _ _ id' _, r, id | .completeBind _ _ id' _, r, id => r = .plain ∧ id = id'
  | .attachLoad _ id', r, id | .attachOpen _ id' _, r, id => r = .known ∧ id = id'
  | .detachRemove keepFilter todo, r, id => r = detachReliance keepFilter ∧ ∃ p, (p, some id) ∈ todo
  | .detachSwap keepFilter id' _ rest, r, id | .detachTeardown keepFilter id' _ rest, r, id =>
    r = detachReliance keepFilter ∧ (id = id' ∨ ∃ p, (p, some id) ∈ rest)
  | _, _, _ => False

/-- The filter that the next operation changes, with the volume that the request knows it to be bound to. -/
def target : DriverRuns.Task σ → Option (FilterId × Option VolId)
  | .prepareBind _ _ f _ | .handoverBind f _ _ => some (f, none)
  | .prepareUndo f id => some (f, some id)
  | .completeBind _ (some f) old _ => some (f, some old)
  | .detachTeardown _ id (some f) _ => some (f, some id)
  | _ => none

/-- The OS volumes that the next operation meets are those that the request knows of: it changes the filter of no
other, DETACH and DETACH_ALL remove no other, and the cache that DETACH checks says 0 only if the engine does. -/
structure Foreseen (c : Config σ) (t : DriverRuns.Task σ) : Prop where
  target : ∀ {f own id}, target t = some (f, own) → BoundTo c.state f id → c.os id = true → own = some id
  removed : ∀ {keepFilter path seen rest id}, t = .detachRemove keepFilter ((path, seen) :: rest) →
    c.state.entries[path]? = some id → c.os id = true → seen = some id
  cached : ∀ {path id v}, t = .detachCheck path → c.state.get path = some (id, v) → c.os id = true →
    v.encryptedBoundary = 0 → v.encryption.encryptedBoundary = 0

/-- The steps that the handlers take for granted: no request meets an OS volume unforeseen, ATTACH completes no OS
volume, and no sweep moves an OS volume that a DETACH in flight has checked. -/
def OsGuarded (c : Config σ) : Event σ → Prop
  | .arrive _ _ => True
  | .act i .go => ∀ t, c.tasks i = some t → Foreseen c t
  | .act i (.complete _) => ∀ path id f, c.tasks i = some (.attachOpen path id f) → c.os id = false
  | .act _ _ => True
  | .engine id (.sweep _ _ _) => c.os id = true → ∀ i t, c.tasks i = some t → ¬ Relies t .still id
  | .engine _ _ => True

/-! ## The invariant -/

/-- What the request relies on holds. -/
def Relied (c : Config σ) (r : Reliance) (id : VolId) : Prop :=
  ∃ v, c.state.volumes id = some v ∧ (c.os id = true → r.Meets v)

/-- A replacement of an OS volume is going to be marked. -/
def Marks : DriverRuns.Task σ → Prop
  | .completeInsert _ isOs source _ _ _ => isOs = true → source = .handover
  | _ => True

structure OsInv (c : Config σ) : Prop where
  /-- OS volumes are marked. -/
  source : ∀ {id v}, c.state.volumes id = some v → c.os id = true → v.attachSource = .handover
  relied : ∀ {i t r id}, c.tasks i = some t → Relies t r id → Relied c r id
  marks : ∀ {i t}, c.tasks i = some t → Marks t

/-- Volumes are neither lost nor relabelled, no boundary but that of `moved` changes, and that only with a cipher;
new OS volumes are marked. -/
structure Evolves (moved : Option VolId) (c c' : Config σ) : Prop where
  kept : ∀ {id v}, c.state.volumes id = some v → ∃ v', c'.state.volumes id = some v' ∧ c'.os id = c.os id ∧
    v'.attachSource = v.attachSource ∧ v'.hasCipher = v.hasCipher ∧
    (v'.encryption.encryptedBoundary = v.encryption.encryptedBoundary ∨ moved = some id ∧ v.hasCipher = true)
  born : ∀ {id v'}, c.state.volumes id = none → c'.state.volumes id = some v' → c'.os id = true →
    v'.attachSource = .handover

variable {c c' c₁ : Config σ} {i : Nat} {t : DriverRuns.Task σ} {x : Choice σ} {u : Option (DriverRuns.Task σ)}
  {moved : Option VolId}

theorem Evolves.relied (h : Evolves moved c c') {r : Reliance} {id : VolId} (hr : Relied c r id)
    (hstill : c.os id = true → moved = some id → r ≠ .still) : Relied c' r id := by
  obtain ⟨v, hv, hmeets⟩ := hr
  obtain ⟨v', hv', hos, -, hcipher, hbound⟩ := h.kept hv
  refine ⟨v', hv', ?_⟩
  rw [hos]
  intro hid
  have hm := hmeets hid
  cases r with
  | known => trivial
  | still =>
    rcases hbound with hb | ⟨hmoved, -⟩
    · exact hb.trans hm
    · exact absurd rfl (hstill hid hmoved)
  | plain =>
    obtain ⟨hzero, hno⟩ := hm
    rcases hbound with hb | ⟨-, hyes⟩
    · exact ⟨hb.trans hzero, hcipher.trans hno⟩
    · rw [hno] at hyes
      cases hyes

theorem Evolves.source (h : Evolves moved c c') (hc : OsInv c) {id : VolId} {v' : Volume σ}
    (hv' : c'.state.volumes id = some v') (hos : c'.os id = true) : v'.attachSource = .handover := by
  cases hv : c.state.volumes id with
  | none => exact h.born hv hv' hos
  | some v =>
    obtain ⟨w, hw, hsame, hsource, -⟩ := h.kept hv
    rw [hv'] at hw
    obtain rfl := Option.some.inj hw
    rw [hsource, hc.source hv (hsame.symm.trans hos)]

/-- What the next operation of a task does to the volumes, to the filters and to what the task relies on. -/
structure Moves (c : Config σ) (t : DriverRuns.Task σ) (x : Choice σ) (c₁ : Config σ)
    (u : Option (DriverRuns.Task σ)) : Prop where
  tasks : c₁.tasks = c.tasks
  evolves : Evolves none c c₁
  bound : ∀ {f id}, BoundTo c.state f id → BoundTo c₁.state f id ∨ x = .go ∧ ∃ own, target t = some (f, own)
  relied : ∀ {r id}, u.elim False (Relies · r id) → Relies t r id ∨ Relied c₁ r id
  marks : u.elim True Marks

theorem Moves.inv (h : Moves c t x c₁ u) (hc : OsInv c) (ht : c.tasks i = some t) : OsInv (c₁.put i u) := by
  have hkeep : ∀ {r id}, Relied c r id → Relied c₁ r id := fun hr => h.evolves.relied hr fun _ hm => by cases hm
  refine ⟨h.evolves.source hc, ?_, ?_⟩
  · intro j t' r id htask hrel
    by_cases hj : j = i
    · subst hj
      obtain rfl : u = some t' := by simpa [Config.put] using htask
      rcases h.relied hrel with hold | hnew
      · exact hkeep (hc.relied ht hold)
      · exact hnew
    · exact hkeep (hc.relied (i := j) (by simpa [Config.put, hj, h.tasks] using htask) hrel)
  · intro j t' htask
    by_cases hj : j = i
    · subst hj
      obtain rfl : u = some t' := by simpa [Config.put] using htask
      exact h.marks
    · exact hc.marks (i := j) (by simpa [Config.put, hj, h.tasks] using htask)

/-! ## Operations -/

theorem evolves_of_volumes (hv : c'.state.volumes = c.state.volumes) (hos : c'.os = c.os) : Evolves moved c c' := by
  constructor
  · intro id v h
    exact ⟨v, by rw [hv, h], by rw [hos], rfl, rfl, .inl rfl⟩
  · intro id v' hnone h
    rw [hv, hnone] at h
    cases h

theorem evolves_insert (c : Config σ) {v : Volume σ} {isOs : Bool}
    (hsource : isOs = true → v.attachSource = .handover) : Evolves moved c (c.insert v isOs).2 := by
  constructor
  · intro id w hw
    have hne : id ≠ c.state.nextVolume := by
      rintro rfl
      rw [c.state.allocated _ le_rfl] at hw
      cases hw
    exact ⟨w, (Function.update_of_ne hne ..).trans hw, Function.update_of_ne hne .., rfl, rfl, .inl rfl⟩
  · intro id w hnone hw hos
    have hid : id = c.state.nextVolume := by
      by_contra hne
      have hold : c.state.volumes id = some w := (Function.update_of_ne hne ..).symm.trans hw
      rw [hnone] at hold
      cases hold
    subst hid
    have hself : (c.insert v isOs).2.state.volumes c.state.nextVolume = some v := Function.update_self ..
    obtain rfl : v = w := Option.some.inj (hself.symm.trans hw)
    exact hsource ((Function.update_self ..).symm.trans hos)

/-- A change to one volume that keeps its mark, its cipher and, unless it is `moved`, its boundary. -/
theorem evolves_modifyVolume (c : Config σ) {id : VolId} {g : Volume σ → Volume σ}
    {hg : ∀ v, (g v).volumePath = v.volumePath} (hsource : ∀ v, (g v).attachSource = v.attachSource)
    (hcipher : ∀ v, (g v).hasCipher = v.hasCipher)
    (hbound : ∀ v, (g v).encryption.encryptedBoundary = v.encryption.encryptedBoundary ∨
      moved = some id ∧ v.hasCipher = true) : Evolves moved c (c.withState (c.state.modifyVolume id g hg)) := by
  constructor
  · intro j v hv
    by_cases hj : j = id
    · subst hj
      refine ⟨g v, ?_, rfl, hsource v, hcipher v, hbound v⟩
      exact (Function.update_self ..).trans (by rw [hv, Option.map_some])
    · exact ⟨v, (Function.update_of_ne hj ..).trans hv, rfl, rfl, rfl, .inl rfl⟩
  · intro j v' hnone hv'
    have hnone' : (c.state.modifyVolume id g hg).volumes j = none := by
      by_cases hj : j = id
      · subst hj
        exact (Function.update_self ..).trans (by rw [hnone, Option.map_none])
      · exact (Function.update_of_ne hj ..).trans hnone
    rw [Config.withState, hnone'] at hv'
    cases hv'

theorem hasCipher_congr {v w : Volume σ} (h : w.ioConfig = v.ioConfig) : w.hasCipher = v.hasCipher := by
  rw [Volume.hasCipher, Volume.hasCipher, AttachedVolume.cipherSupplier, AttachedVolume.cipherSupplier, h]

theorem evolves_modifyAttached (c : Config σ) {id : VolId}
    {g : AttachedVolume (OffsetStore σ) → AttachedVolume (OffsetStore σ)} (hio : ∀ v, (g v).ioConfig = v.ioConfig)
    (hbound : ∀ v, (g v).encryption.encryptedBoundary = v.encryption.encryptedBoundary ∨
      moved = some id ∧ v.cipherSupplier.isSome = true) : Evolves moved c (c.withState (c.state.modifyAttached id g)) :=
  evolves_modifyVolume c (fun _ => rfl) (fun v => hasCipher_congr (hio v.toAttachedVolume))
    fun v => hbound v.toAttachedVolume

/-- A sweep step changes the boundary only with a cipher, and the configuration never. -/
theorem sweepStep_fields (S : EncryptedOffsetStore σ) (batchSectors : UInt64) (v : AttachedVolume σ) (d : Device) :
    (v.sweepStep S batchSectors d).2.1.ioConfig = v.ioConfig ∧
      ((v.sweepStep S batchSectors d).2.1.encryption = v.encryption ∨ v.cipherSupplier.isSome = true) := by
  obtain ⟨hio, henc, -⟩ := acquired_fields v
  unfold AttachedVolume.sweepStep
  cases hn : v.nextCipher with
  | none => exact ⟨hio, .inl henc⟩
  | some cipher =>
    obtain ⟨s, hs, -⟩ := Option.bind_eq_some_iff.mp hn
    refine ⟨?_, .inr (by rw [hs]; rfl)⟩
    simp only
    split
    · exact hio
    · exact hio

/-- Only a sweep with a cipher moves a boundary. -/
theorem evolves_engine (c : Config σ) (id : VolId) (op : EngineOp σ) :
    Evolves (match op with | .sweep _ _ _ => some id | _ => none) c
      (c.withState (c.state.modifyAttached id op.apply)) := by
  cases op with
  | startEncrypt S d => exact evolves_modifyAttached c (fun _ => rfl) fun _ => .inl rfl
  | startDecrypt S d => exact evolves_modifyAttached c (fun _ => rfl) fun _ => .inl rfl
  | sweep S batchSectors d =>
    apply evolves_modifyAttached c
    · exact fun v => (sweepStep_fields _ batchSectors v d).1
    · intro v
      rcases (sweepStep_fields (DriverState.offsetStore S) batchSectors v d).2 with henc | hsome
      · exact .inl (congrArg EncryptionEngine.encryptedBoundary henc)
      · exact .inr ⟨rfl, hsome⟩

/-- An operation on the filter that the task is about to change. -/
theorem bound_of_touches {P : Option String} {g : FilterId} {own : Option VolId}
    (ht : Touches P (some g) c.state c₁.state) (hg : target t = some (g, own)) {f : FilterId} {id : VolId}
    (hb : BoundTo c.state f id) :
    BoundTo c₁.state f id ∨ (Choice.go : Choice σ) = .go ∧ ∃ own, target t = some (f, own) := by
  by_cases hf : g = f
  · exact .inr ⟨rfl, own, hf ▸ hg⟩
  · exact .inl ((ht.boundTo_iff fun h => hf (Option.some.inj h)).mpr hb)

theorem boundTo_createFilter {s : State σ} {f : FilterId} {id : VolId} (lower : DeviceId) (hb : BoundTo s f id) :
    BoundTo (s.createFilter lower).2 f id := by
  apply ((touches_createFilter s lower none).boundTo_iff ?_).mpr hb
  rintro ⟨⟩
  obtain ⟨ext, hext, -⟩ := hb
  rw [s.created _ le_rfl] at hext
  cases hext

/-- An operation that leaves volumes and filters alone. -/
theorem Moves.quiet (htasks : c₁.tasks = c.tasks) (hv : c₁.state.volumes = c.state.volumes) (hos : c₁.os = c.os)
    (hf : c₁.state.filters = c.state.filters)
    (hrel : ∀ {r id}, u.elim False (Relies · r id) → Relies t r id ∨ Relied c₁ r id) (hmarks : u.elim True Marks) :
    Moves c t x c₁ u := by
  refine ⟨htasks, evolves_of_volumes hv hos, ?_, hrel, hmarks⟩
  rintro f id ⟨ext, hext, hid⟩
  exact .inl ⟨ext, by rw [hf, hext], hid⟩

/-- An operation that changes nothing, before a task that relies on nothing. -/
theorem Moves.still (hrel : ∀ {r id}, ¬ u.elim False (Relies · r id)) (hmarks : u.elim True Marks) : Moves c t x c u :=
  .quiet rfl rfl rfl rfl (fun h => (hrel h).elim) hmarks

/-! ## One step -/

theorem relied_plain_of_not_os {id : VolId} {v : Volume σ} (hv : c.state.volumes id = some v) (hos : c.os id = false)
    (r : Reliance) : Relied c r id :=
  ⟨v, hv, fun h => by rw [hos] at h; cases h⟩

/-- The volume that PREPARE has just inserted has no cipher and boundary 0. -/
theorem relied_insert_provisional (c : Config σ) (path : String) (sectorSize : UInt32) (layout : ReplicaLayout)
    (isOs : Bool) (f : FilterId) :
    Relied (c.insert (provisional path sectorSize layout (sourceOf isOs) f) isOs).2 .plain c.state.nextVolume :=
  ⟨_, Function.update_self .., fun _ => ⟨rfl, rfl⟩⟩

/-- A check that DETACH passes says that an OS volume has boundary 0. -/
theorem relied_of_check (h : OsInv c) {path : String} (hg : Foreseen c (.detachCheck path))
    (hpass : detachRefused c.state path = false) {id : VolId} {v : Volume σ} (hget : c.state.get path = some (id, v)) :
    Relied c .still id := by
  obtain ⟨-, hv⟩ := get_eq_some_iff.mp hget
  refine ⟨v, hv, ?_⟩
  intro hos
  have hzero : v.encryptedBoundary = 0 := by
    have hmark : v.isOsVolume = true := by simp [Volume.isOsVolume, h.source hv hos]
    have hnot : ¬ 0 < v.encryptedBoundary := by
      simpa [detachRefused, hget, hmark, Volume.hasEncryptedData] using hpass
    exact UInt64.le_zero_iff.mp (UInt64.not_lt.mp hnot)
  exact hg.cached rfl hget hos hzero

/-- What the snapshot of DETACH_ALL lists is no OS volume. -/
theorem relied_of_snapshot (h : OsInv c) {p : String} {id : VolId} (hmem : (p, some id) ∈ dataVolumes c.state) :
    Relied c .plain id := by
  simp only [dataVolumes, State.all, List.mem_map, List.mem_filter, List.mem_filterMap, Prod.mk.injEq,
    Option.some.injEq] at hmem
  obtain ⟨⟨j, v⟩, ⟨⟨e, -, hget⟩, hmark⟩, -, rfl⟩ := hmem
  obtain ⟨-, hv⟩ := get_eq_some_iff.mp hget
  apply relied_plain_of_not_os hv
  by_contra hos
  have hsource := h.source hv (by simpa using hos)
  simp [Volume.isOsVolume, hsource] at hmark

/-- The next operation of a task whose steps are foreseen. -/
theorem act_moves (h : OsInv c) (ht : c.tasks i = some t) (hg : OsGuarded c (.act i x)) (hs : act c i t x = some c') :
    ∃ c₁ u, c' = c₁.put i u ∧ Moves c t x c₁ u := by
  unfold act at hs
  split at hs
  -- PREPARE
  · refine ⟨c, _, (Option.some.inj hs).symm, .still ?_ ?_⟩
    · split <;> exact id
    · split <;> trivial
  · exact ⟨c, _, (Option.some.inj hs).symm, .still id trivial⟩
  · split at hs
    · exact ⟨c, _, (Option.some.inj hs).symm, .still id trivial⟩
    · cases hs
  · refine ⟨_, _, (Option.some.inj hs).symm, rfl, evolves_of_volumes rfl rfl, ?_, False.elim, trivial⟩
    exact fun hb => .inl (boundTo_createFilter _ hb)
  · exact ⟨c, _, (Option.some.inj hs).symm, .still id trivial⟩
  · exact ⟨c, _, (Option.some.inj hs).symm, .still id trivial⟩
  · rename_i path isOs f sectorSize layout
    refine ⟨_, _, (Option.some.inj hs).symm, rfl, evolves_insert c ?_, .inl, ?_, trivial⟩
    · rintro rfl
      rfl
    · rintro r id ⟨rfl, rfl⟩
      exact .inr (relied_insert_provisional ..)
  · refine ⟨_, _, (Option.some.inj hs).symm, rfl, evolves_of_volumes rfl rfl, ?_, .inl, trivial⟩
    exact bound_of_touches (touches_filterBindVolume _ _ _ none) rfl
  · exact ⟨c, _, (Option.some.inj hs).symm, .still id trivial⟩
  · split at hs
    · exact ⟨_, _, (Option.some.inj hs).symm, .quiet rfl rfl rfl rfl .inl trivial⟩
    · exact ⟨c, _, (Option.some.inj hs).symm, .still id trivial⟩
  · refine ⟨_, _, (Option.some.inj hs).symm, .quiet rfl rfl rfl rfl .inl ?_⟩
    rintro rfl
    rfl
  · refine ⟨_, _, (Option.some.inj hs).symm, rfl, evolves_of_volumes rfl rfl, ?_, False.elim, trivial⟩
    exact bound_of_touches (touches_detachFilter _ _ none) rfl
  · rename_i path isOs source f old o
    exact ⟨_, _, (Option.some.inj hs).symm, rfl, evolves_insert c (h.marks ht), .inl, .inl, trivial⟩
  · rename_i path f old id
    cases f with
    | none => exact ⟨_, _, (Option.some.inj hs).symm, .quiet rfl rfl rfl rfl False.elim trivial⟩
    | some f =>
      refine ⟨_, _, (Option.some.inj hs).symm, rfl, evolves_of_volumes rfl rfl, ?_, False.elim, trivial⟩
      exact bound_of_touches (touches_filterBindVolume _ _ _ none) rfl
  -- ATTACH
  · split at hs
    · exact ⟨c, _, (Option.some.inj hs).symm, .still id trivial⟩
    · rename_i path id v hget
      obtain ⟨-, hv⟩ := get_eq_some_iff.mp hget
      refine ⟨c, _, (Option.some.inj hs).symm, .quiet rfl rfl rfl rfl ?_ ?_⟩
      · split
        · exact False.elim
        · rintro r j ⟨rfl, rfl⟩
          exact .inr ⟨v, hv, fun _ => trivial⟩
      · split <;> trivial
  · exact ⟨c, _, (Option.some.inj hs).symm, .quiet rfl rfl rfl rfl .inl trivial⟩
  · exact ⟨c, _, (Option.some.inj hs).symm, .still id trivial⟩
  · rename_i path id f o
    have hos : c.os id = false := hg path id f ht
    obtain ⟨v, hv, -⟩ : Relied c .known id := h.relied ht ⟨rfl, rfl⟩
    refine ⟨_, _, (Option.some.inj hs).symm, .quiet rfl rfl rfl rfl ?_ ?_⟩
    · rintro r j ⟨rfl, rfl⟩
      exact .inr (relied_plain_of_not_os hv hos .plain)
    · intro htrue
      rw [hos] at htrue
      cases htrue
  -- DETACH and DETACH_ALL
  · rename_i path
    refine ⟨c, _, (Option.some.inj hs).symm, .quiet rfl rfl rfl rfl ?_ ?_⟩
    · split
      · exact False.elim
      · rename_i hpass
        rintro r id ⟨rfl, p, hmem⟩
        rw [List.mem_singleton, Prod.mk.injEq] at hmem
        obtain ⟨x, hget, rfl⟩ := Option.map_eq_some_iff.mp hmem.2.symm
        exact .inr (relied_of_check h (hg _ ht) (by simpa using hpass) hget)
    · split <;> trivial
  · refine ⟨c, _, (Option.some.inj hs).symm, .quiet rfl rfl rfl rfl ?_ trivial⟩
    rintro r id ⟨rfl, p, hmem⟩
    exact .inr (relied_of_snapshot h hmem)
  · exact ⟨c, _, (Option.some.inj hs).symm, .still id trivial⟩
  · rename_i keepFilter path seen rest
    have hrest : ∀ {r id}, (r = detachReliance keepFilter ∧ ∃ p, (p, some id) ∈ rest) →
        Relies (.detachRemove keepFilter ((path, seen) :: rest) : DriverRuns.Task σ) r id := by
      rintro r id ⟨rfl, p, hmem⟩
      exact ⟨rfl, p, List.mem_cons_of_mem _ hmem⟩
    split at hs
    · exact ⟨c, _, (Option.some.inj hs).symm, .quiet rfl rfl rfl rfl (fun hr => .inl (hrest hr)) trivial⟩
    · rename_i id v hget
      obtain ⟨he, hv⟩ := get_eq_some_iff.mp hget
      refine ⟨_, _, (Option.some.inj hs).symm, .quiet rfl rfl rfl rfl ?_ trivial⟩
      rintro r j ⟨rfl, rfl | hmem⟩
      · cases hos : c.os j with
        | false => exact .inr (relied_plain_of_not_os hv hos _)
        | true =>
          obtain rfl := (hg _ ht).removed rfl he hos
          exact .inl ⟨rfl, path, List.mem_cons_self ..⟩
      · exact .inl (hrest ⟨rfl, hmem⟩)
  · refine ⟨_, _, (Option.some.inj hs).symm, rfl, ?_, .inl, .inl, trivial⟩
    exact evolves_modifyVolume c (fun _ => rfl) (fun _ => rfl) fun _ => .inl rfl
  · exact ⟨c, _, (Option.some.inj hs).symm, .still id trivial⟩
  · rename_i keepFilter id f rest
    have hrest : ∀ {r j}, (r = detachReliance keepFilter ∧ ∃ p, (p, some j) ∈ rest) →
        Relies (.detachTeardown keepFilter id f rest : DriverRuns.Task σ) r j := fun hr => ⟨hr.1, .inr hr.2⟩
    cases f with
    | none => exact ⟨_, _, (Option.some.inj hs).symm, .quiet rfl rfl rfl rfl (fun hr => .inl (hrest hr)) trivial⟩
    | some f =>
      cases keepFilter with
      | true =>
        exact ⟨_, _, (Option.some.inj hs).symm, rfl, evolves_of_volumes rfl rfl,
          bound_of_touches (touches_modifyFilter _ _ _ none) rfl, fun hr => .inl (hrest hr), trivial⟩
      | false =>
        exact ⟨_, _, (Option.some.inj hs).symm, rfl, evolves_of_volumes rfl rfl,
          bound_of_touches (touches_detachFilter _ _ none) rfl, fun hr => .inl (hrest hr), trivial⟩
  -- the handover mount
  · split at hs
    · exact ⟨c, _, (Option.some.inj hs).symm, .still id trivial⟩
    · refine ⟨c, _, (Option.some.inj hs).symm, .still ?_ ?_⟩
      · split <;> exact id
      · split <;> trivial
  · exact ⟨c, _, (Option.some.inj hs).symm, .still id trivial⟩
  · exact ⟨c, _, (Option.some.inj hs).symm, .still id trivial⟩
  · exact ⟨_, _, (Option.some.inj hs).symm, rfl, evolves_insert c fun _ => rfl, .inl, False.elim, trivial⟩
  · refine ⟨_, _, (Option.some.inj hs).symm, rfl, ?_, .inl, False.elim, trivial⟩
    exact evolves_modifyAttached c (fun _ => rfl) fun _ => .inl rfl
  · refine ⟨_, _, (Option.some.inj hs).symm, rfl, evolves_of_volumes rfl rfl, ?_, False.elim, trivial⟩
    exact bound_of_touches (touches_filterBindVolume _ _ _ none) rfl
  -- AddDevice
  · split at hs
    · exact ⟨c, _, (Option.some.inj hs).symm, .still id trivial⟩
    · refine ⟨_, _, (Option.some.inj hs).symm, rfl, evolves_of_volumes rfl rfl, ?_, False.elim, trivial⟩
      exact fun hb => .inl (boundTo_createFilter _ hb)
  · exact ⟨_, _, (Option.some.inj hs).symm, .quiet rfl rfl rfl rfl False.elim trivial⟩
  · cases hs

theorem osInv_loaded (handover : Option (Fixed 16)) : OsInv (Config.loaded σ handover) := by
  refine ⟨?_, ?_, ?_⟩
  · intro id v hv
    cases hv
  · intro i t r id ht
    cases ht
  · intro i t ht
    cases ht

theorem step_osInv {e : Event σ} (h : OsInv c) (hg : OsGuarded c e) (hs : step c e = some c') : OsInv c' := by
  cases e with
  | arrive i t =>
    simp only [step] at hs
    split at hs
    · rename_i hnew
      obtain rfl := Option.some.inj hs
      have ht : (∀ r id, ¬ Relies t r id) ∧ Marks t := by
        cases t <;> simp_all [DriverRuns.Task.Initial, Relies, Marks]
      refine ⟨h.source, ?_, ?_⟩
      · intro j t' r id htask hrel
        by_cases hj : j = i
        · subst hj
          obtain rfl : t = t' := by simpa [Config.put] using htask
          exact absurd hrel (ht.1 r id)
        · exact h.relied (i := j) (by simpa [Config.put, hj] using htask) hrel
      · intro j t' htask
        by_cases hj : j = i
        · subst hj
          obtain rfl : t = t' := by simpa [Config.put] using htask
          exact ht.2
        · exact h.marks (i := j) (by simpa [Config.put, hj] using htask)
    · cases hs
  | act i x =>
    obtain ⟨t, ht, hact⟩ := Option.bind_eq_some_iff.mp hs
    obtain ⟨c₁, u, rfl, hmoves⟩ := act_moves h ht hg hact
    exact hmoves.inv h ht
  | engine id op =>
    obtain rfl := Option.some.inj hs
    have hev := evolves_engine c id op
    refine ⟨hev.source h, ?_, fun ht => h.marks ht⟩
    intro i t r j ht hrel
    apply hev.relied (h.relied ht hrel)
    rintro hos hmoved rfl
    cases op with
    | startEncrypt S d => cases hmoved
    | startDecrypt S d => cases hmoved
    | sweep S batchSectors d =>
      obtain rfl := Option.some.inj hmoved
      exact hg hos i t ht hrel

/-- A request relies on boundary 0 for the volume that it knows its filter to be bound to. -/
theorem relies_of_target {f : FilterId} {id : VolId} (h : target t = some (f, some id)) :
    Relies t .still id ∨ Relies t .plain id := by
  cases t with
  | prepareUndo g j =>
    obtain ⟨-, rfl⟩ : g = f ∧ j = id := by simpa [target] using h
    exact .inr ⟨rfl, rfl⟩
  | completeBind path g old j =>
    cases g with
    | none => cases h
    | some g =>
      obtain ⟨-, rfl⟩ : g = f ∧ old = id := by simpa [target] using h
      exact .inr ⟨rfl, rfl⟩
  | detachTeardown keepFilter j g rest =>
    cases g with
    | none => cases h
    | some g =>
      obtain ⟨-, rfl⟩ : g = f ∧ j = id := by simpa [target] using h
      cases keepFilter with
      | true => exact .inl ⟨rfl, .inl rfl⟩
      | false => exact .inr ⟨rfl, .inl rfl⟩
  | _ => cases h

/-- A task whose steps are foreseen does not change the filter of an encrypted OS volume. -/
theorem Protected.not_target {f : FilterId} {id : VolId} (hp : Protected c f id) (h : OsInv c)
    (ht : c.tasks i = some t) (hg : Foreseen c t) (own : Option VolId) : target t ≠ some (f, own) := by
  intro htarget
  obtain ⟨hb, hos, v, hv, hpos⟩ := hp
  obtain rfl := hg.target htarget hb hos
  have hzero : v.encryption.encryptedBoundary = 0 := by
    rcases relies_of_target htarget with hrel | hrel
    · obtain ⟨w, hw, hmeets⟩ := h.relied ht hrel
      rw [hv] at hw
      obtain rfl := Option.some.inj hw
      exact hmeets hos
    · obtain ⟨w, hw, hmeets⟩ := h.relied ht hrel
      rw [hv] at hw
      obtain rfl := Option.some.inj hw
      exact (hmeets hos).1
  rw [hzero] at hpos
  exact absurd hpos (by decide)

/-- The filter of an encrypted OS volume stays bound to it. -/
theorem Protected.boundTo_step {f : FilterId} {id : VolId} (hp : Protected c f id) (h : OsInv c) {e : Event σ}
    (hg : OsGuarded c e) (hs : step c e = some c') : BoundTo c'.state f id := by
  cases e with
  | arrive i t =>
    simp only [step] at hs
    split at hs
    · obtain rfl := Option.some.inj hs
      exact hp.1
    · cases hs
  | act i x =>
    obtain ⟨t, ht, hact⟩ := Option.bind_eq_some_iff.mp hs
    obtain ⟨c₁, u, rfl, hmoves⟩ := act_moves h ht hg hact
    rcases hmoves.bound hp.1 with hb | ⟨rfl, own, htarget⟩
    · exact hb
    · exact absurd htarget (hp.not_target h ht (hg t ht) own)
  | engine id op =>
    obtain rfl := Option.some.inj hs
    exact hp.1

/-- In every run from driver load whose steps are all guarded, whatever the interleaving, no step unbinds or deletes
the filter of an encrypted OS volume or binds it to a volume without a cipher. -/
theorem os_volume_never_exposed (handover : Option (Fixed 16)) {events : List (Event σ)}
    (hguard : StepRun.Along step OsGuarded (Config.loaded σ handover) events) :
    StepRun.Along step (fun c e => ¬ Exposes c e) (Config.loaded σ handover) events := by
  refine StepRun.Along.of_invariant (I := OsInv) (fun h hg hs => step_osInv h hg hs) ?_ (osInv_loaded handover) hguard
  rintro c e h hg ⟨f, id, c', hp, hs, hbare⟩
  exact hbare ⟨id, hp.boundTo_step h hg hs, .inl rfl⟩

end Exposure

section Sample

open JvckStore JvckMetadata

/-- What the handover names: a volume that is encrypted up to sector 5. -/
def openedOs : Opened JvckMetadataStore where
  sectorSize := 512
  ioConfig := .encrypted
    (some (staticCipherSupplier Aes.aes256 (List.Vector.replicate 32 1) (List.Vector.replicate 32 2))) 0 ⟨5, 512⟩
  offsetSector := 0
  encryptedOffset := ⟨5, 512⟩
  store := JvckRecovery.sampleStore 5 .encrypt

def handoverRun (i : Nat) (f : FilterId) : List (Event JvckMetadataStore) :=
  [.arrive i (.handoverCheck f), .act i .go, .act i (.complete openedOs), .act i .go,
    .act i (.resume (jvckOffsetStore standard) (JvckRecovery.sampleDevice 5 .encrypt)), .act i .go]

/-- The driver is loaded with a handover. -/
def booted : Config JvckMetadataStore := .loaded JvckMetadataStore (some (List.Vector.replicate 16 7))

/-- `add_device` and the handover mount of the OS volume. -/
def mountedRun : List (Event JvckMetadataStore) := addDeviceRun 0 ++ handoverRun 0 0

/-- The OS volume is mounted, and its DETACH is refused. -/
def refusedRun : List (Event JvckMetadataStore) :=
  mountedRun ++ [.arrive 0 (.detachCheck "\\Device\\HarddiskVolume5"), .act 0 .go]

/-- The OS volume is mounted under the name of its device, and PREPARE comes with the drive letter. -/
def aliasedRun : List (Event JvckMetadataStore) := mountedRun ++ prepareRun 0 "C:" 0

/-- The configuration behind a run that can be carried out. -/
def afterBoot (events : List (Event JvckMetadataStore)) : Config JvckMetadataStore :=
  (StepRun.run step booted events).getD booted

theorem foreseen_of_idle {σ : Type} {c : Config σ} {t : DriverRuns.Task σ} (h : target t = none)
    (hremove : ∀ k todo, t ≠ .detachRemove k todo) (hcheck : ∀ path, t ≠ .detachCheck path) : Foreseen c t := by
  refine ⟨?_, ?_, ?_⟩
  · intro f own id ht
    rw [h] at ht
    cases ht
  · intro k path seen rest id ht
    exact absurd ht (hremove _ _)
  · intro path id v ht
    exact absurd ht (hcheck _)

theorem refusedRun_guarded : StepRun.Along step OsGuarded booted refusedRun := by
  refine .cons rfl trivial (.cons rfl ?_ (.cons rfl ?_ (.cons rfl trivial (.cons rfl ?_ (.cons rfl ?_ (.cons rfl ?_
    (.cons rfl trivial (.cons rfl ?_ (.cons rfl trivial (.cons rfl ?_ trivial))))))))))
  · rintro t ⟨⟩
    exact foreseen_of_idle rfl nofun nofun
  · rintro t ⟨⟩
    exact foreseen_of_idle rfl nofun nofun
  · rintro t ⟨⟩
    exact foreseen_of_idle rfl nofun nofun
  · rintro path id f ⟨⟩
  · rintro t ⟨⟩
    exact foreseen_of_idle rfl nofun nofun
  · rintro t ⟨⟩
    refine ⟨?_, nofun, nofun⟩
    rintro f own id ⟨⟩ ⟨ext, ⟨⟩, hid⟩
    cases hid
  · rintro t ⟨⟩
    refine ⟨nofun, nofun, ?_⟩
    rintro path id v ⟨⟩ hget - hzero
    obtain ⟨he, hv⟩ := get_eq_some_iff.mp hget
    have hentry : (afterBoot mountedRun).state.entries["\\Device\\HarddiskVolume5"]? = some 0 := by decide +kernel
    obtain rfl : id = 0 := Option.some.inj (he.symm.trans hentry)
    obtain rfl := Option.some.inj hv
    exact absurd hzero (by decide)

/-- The OS volume that the handover has mounted stays covered. -/
theorem os_volume_never_exposed_refused : StepRun.Along step (fun c e => ¬ Exposes c e) booted refusedRun :=
  os_volume_never_exposed _ refusedRun_guarded

/-- PREPARE under another name binds the filter of the encrypted OS volume to a volume without a cipher. -/
theorem os_volume_exposed_by_alias : ¬ StepRun.Along step (fun c e => ¬ Exposes c e) booted aliasedRun := by
  intro h
  have hsplit : aliasedRun = (mountedRun ++ (prepareRun 0 "C:" 0).take 5) ++ .act 0 .go :: [.act 0 .keep] := rfl
  rw [hsplit] at h
  have hrun : StepRun.run step booted (mountedRun ++ (prepareRun 0 "C:" 0).take 5) =
      some (afterBoot (mountedRun ++ (prepareRun 0 "C:" 0).take 5)) := rfl
  refine h.reached hrun ?_
  refine ⟨0, 0, afterBoot (mountedRun ++ (prepareRun 0 "C:" 0).take 6), ?_, rfl, ?_⟩
  · exact ⟨⟨_, rfl, rfl⟩, rfl, _, rfl, by decide⟩
  · rintro ⟨id', ⟨ext, hext, hid⟩, hcover⟩
    obtain rfl := Option.some.inj hext
    obtain rfl := Option.some.inj hid
    rcases hcover with hzero | ⟨v, hv, hcipher⟩
    · cases hzero
    · obtain rfl := Option.some.inj hv
      cases hcipher

end Sample

end OsVolume
