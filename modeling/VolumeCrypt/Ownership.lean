import VolumeCrypt.DriverState

/-!
# Ownership of paths and filters

A request that changes the driver's state works on one registry path and one filter, and
in between the two disagree. While it does so it holds them: a window says what is held
and how far the request is. Outside the windows the registry and the extensions
agree, and a step that touches only what its own window holds keeps it so.
-/
namespace Ownership

open DriverState

section Relations

variable {σ : Type}

/-- The filter that a volume refers to. -/
def filterOf (s : State σ) (id : VolId) : Option FilterId := (s.volumes id).bind (·.filterDevice)

/-- The extension of the filter is bound to the volume. -/
def BoundTo (s : State σ) (f : FilterId) (id : VolId) : Prop := ∃ ext, s.filters f = some ext ∧ ext.volume = some id

/-- The filter exists and has no volume. -/
def Unbound (s : State σ) (f : FilterId) : Prop := ∃ ext, s.filters f = some ext ∧ ext.volume = none

/-- At most one entry refers to a filter, and the filter is bound to just that volume. -/
def OneVolumePerFilter (s : State σ) : Prop :=
  (∀ {p q : String} {id id' f}, s.entries[p]? = some id → s.entries[q]? = some id' → filterOf s id = some f →
    filterOf s id' = some f → p = q) ∧
  ∀ f id, BoundTo s f id ↔ ∃ p : String, s.entries[p]? = some id ∧ filterOf s id = some f

/-- Outside the held paths and filters the registry and the extensions agree. -/
structure Consistent (HP : String → Prop) (HF : FilterId → Prop) (s : State σ) : Prop where
  entry : ∀ {p : String} {id}, s.entries[p]? = some id → ¬ HP p → ∃ f, filterOf s id = some f ∧ ¬ HF f ∧ BoundTo s f id
  bound : ∀ {f id}, BoundTo s f id → ¬ HF f →
    ∃ p : String, s.entries[p]? = some id ∧ ¬ HP p ∧ filterOf s id = some f

theorem BoundTo.unique {s : State σ} {f : FilterId} {id id' : VolId} (h : BoundTo s f id) (h' : BoundTo s f id') :
    id = id' := by
  obtain ⟨ext, he, hv⟩ := h
  obtain ⟨ext', he', hv'⟩ := h'
  rw [he] at he'
  obtain rfl := Option.some.inj he'
  rw [hv] at hv'
  exact Option.some.inj hv'

theorem Unbound.not_boundTo {s : State σ} {f : FilterId} (h : Unbound s f) (id : VolId) : ¬ BoundTo s f id := by
  obtain ⟨ext, he, hv⟩ := h
  rintro ⟨ext', he', hv'⟩
  rw [he] at he'
  obtain rfl := Option.some.inj he'
  rw [hv] at hv'
  cases hv'

/-- With nothing held there is one volume for each filter. -/
theorem Consistent.oneVolumePerFilter {s : State σ} {HP : String → Prop} {HF : FilterId → Prop}
    (h : Consistent HP HF s) (hp : ∀ p, ¬ HP p) (hf : ∀ f, ¬ HF f) : OneVolumePerFilter s := by
  constructor
  · intro p q id id' f he he' hr hr'
    obtain ⟨g, hg, -, hb⟩ := h.entry he (hp p)
    obtain ⟨g', hg', -, hb'⟩ := h.entry he' (hp q)
    obtain rfl : g = f := Option.some.inj (hg.symm.trans hr)
    obtain rfl : g' = g := Option.some.inj (hg'.symm.trans hr')
    rw [hb.unique hb'] at he
    exact entry_unique he he'
  · intro f id
    constructor
    · intro hb
      obtain ⟨p, he, -, hr⟩ := h.bound hb (hf f)
      exact ⟨p, he, hr⟩
    · rintro ⟨p, he, hr⟩
      obtain ⟨g, hg, -, hb⟩ := h.entry he (hp p)
      obtain rfl : g = f := Option.some.inj (hg.symm.trans hr)
      exact hb

end Relations

/-! ## Windows -/

/-- What a request holds while it changes the state. -/
inductive Window where
  | idle
  /-- The entry is there and the filter not bound yet. -/
  | fresh (p : String) (f : FilterId) (id : VolId)
  /-- The entry and the filter agree. -/
  | settled (p : String) (f : FilterId) (id : VolId)
  /-- The entry is gone and the filter still bound to the old volume. -/
  | vacant (p : String) (f : FilterId) (old : VolId)
  /-- The entry is the new volume and the filter still bound to the old one. -/
  | renewed (p : String) (f : FilterId) (old id : VolId)
  /-- The entry is gone and its volume still refers to the filter. -/
  | leaving (f : FilterId) (id : VolId)
  /-- Nothing refers to the filter, which is still bound. -/
  | orphan (f : FilterId) (id : VolId)
  deriving DecidableEq

namespace Window

def path : Window → Option String
  | fresh p _ _ | settled p _ _ | vacant p _ _ | renewed p _ _ _ => some p
  | idle | leaving _ _ | orphan _ _ => none

def filter : Window → Option FilterId
  | idle => none
  | fresh _ f _ | settled _ f _ | vacant _ f _ | renewed _ f _ _ | leaving f _ | orphan f _ => some f

def Ok {σ : Type} (s : State σ) : Window → Prop
  | idle => True
  | fresh p f id => s.entries[p]? = some id ∧ filterOf s id = some f ∧ Unbound s f
  | settled p f id => s.entries[p]? = some id ∧ filterOf s id = some f ∧ BoundTo s f id
  | vacant p f old => s.entries[p]? = none ∧ BoundTo s f old
  | renewed p f old id => s.entries[p]? = some id ∧ filterOf s id = some f ∧ BoundTo s f old
  | leaving f id => (∀ p : String, s.entries[p]? ≠ some id) ∧ filterOf s id = some f ∧ BoundTo s f id
  | orphan f id => BoundTo s f id

/-- A held filter exists. -/
theorem Ok.filter_exists {σ : Type} {s : State σ} {w : Window} (h : w.Ok s) {f : FilterId} (hf : w.filter = some f) :
    s.filters f ≠ none := by
  have hbound : ∀ {g id}, BoundTo s g id → s.filters g ≠ none := by
    rintro g id ⟨ext, hext, -⟩ hnone
    rw [hnone] at hext
    cases hext
  cases w with
  | idle => cases hf
  | fresh p g id =>
    obtain rfl := Option.some.inj hf
    obtain ⟨-, -, ext, hext, -⟩ := h
    rw [hext]
    exact Option.some_ne_none ext
  | settled p g id => exact Option.some.inj hf ▸ hbound h.2.2
  | vacant p g old => exact Option.some.inj hf ▸ hbound h.2
  | renewed p g old id => exact Option.some.inj hf ▸ hbound h.2.2
  | leaving g id => exact Option.some.inj hf ▸ hbound h.2.2
  | orphan g id => exact Option.some.inj hf ▸ hbound h

end Window

/-- Some window holds `k`. -/
def Held {κ : Type} (key : Window → Option κ) (w : Nat → Window) (k : κ) : Prop := ∃ i, key (w i) = some k

/-- Some window but the `i`-th holds `k`. -/
def HeldBut {κ : Type} (key : Window → Option κ) (w : Nat → Window) (i : Nat) (k : κ) : Prop :=
  ∃ j, j ≠ i ∧ key (w j) = some k

/-- No two windows hold the same. -/
def Exclusive {κ : Type} (key : Window → Option κ) (w : Nat → Window) : Prop :=
  ∀ i k, key (w i) = some k → ¬ HeldBut key w i k

/-- The state agrees outside the windows, and inside each is as the window says. -/
structure Owned {σ : Type} (w : Nat → Window) (s : State σ) : Prop where
  consistent : Consistent (Held Window.path w) (Held Window.filter w) s
  ok : ∀ i, (w i).Ok s
  path : Exclusive Window.path w
  filter : Exclusive Window.filter w

section Holding

variable {κ : Type} {key : Window → Option κ} {w : Nat → Window} {i : Nat} {w' : Window} {k : κ}

theorem held_iff (i : Nat) : Held key w k ↔ key (w i) = some k ∨ HeldBut key w i k := by
  constructor
  · rintro ⟨j, hj⟩
    by_cases hji : j = i
    · exact .inl (hji ▸ hj)
    · exact .inr ⟨j, hji, hj⟩
  · rintro (hi | ⟨j, -, hj⟩)
    · exact ⟨i, hi⟩
    · exact ⟨j, hj⟩

theorem heldBut_update : HeldBut key (Function.update w i w') i k ↔ HeldBut key w i k := by
  constructor
  · rintro ⟨j, hji, hj⟩
    exact ⟨j, hji, by simpa [hji] using hj⟩
  · rintro ⟨j, hji, hj⟩
    exact ⟨j, hji, by simpa [hji] using hj⟩

theorem held_update : Held key (Function.update w i w') k ↔ key w' = some k ∨ HeldBut key w i k := by
  rw [held_iff i, heldBut_update, Function.update_self]

theorem Exclusive.update (h : Exclusive key w) (hnew : ∀ k, key w' = some k → ¬ HeldBut key w i k) :
    Exclusive key (Function.update w i w') := by
  rintro j k hj ⟨l, hlj, hl⟩
  by_cases hji : j = i
  · subst hji
    rw [Function.update_self] at hj
    exact hnew k hj (heldBut_update.mp ⟨l, hlj, hl⟩)
  · rw [Function.update_of_ne hji] at hj
    by_cases hli : l = i
    · subst hli
      rw [Function.update_self] at hl
      exact hnew k hl ⟨j, hji, hj⟩
    · rw [Function.update_of_ne hli] at hl
      exact h j k hj ⟨l, hlj, hl⟩

end Holding

section Steps

variable {σ : Type} {w : Nat → Window} {s s' : State σ} {i : Nat} {w' : Window} {P : Option String}
  {F : Option FilterId}

/-- The state changes at the path `P` and the filter `F` only; a volume may lose its filter when it is `F`
and the volume is not registered, and no volume of before gets an entry. -/
structure Touches (P : Option String) (F : Option FilterId) (s s' : State σ) : Prop where
  entries : ∀ p : String, P ≠ some p → s'.entries[p]? = s.entries[p]?
  filters : ∀ f, F ≠ some f → s'.filters f = s.filters f
  volumes : ∀ {id v}, s.volumes id = some v → filterOf s' id = filterOf s id ∨
    F.isSome ∧ v.filterDevice = F ∧ ∀ p : String, s.entries[p]? ≠ some id
  old : ∀ {p : String} {id v}, s.volumes id = some v → s'.entries[p]? = some id → s.entries[p]? = some id

theorem Touches.boundTo_iff (h : Touches P F s s') {f : FilterId} (hf : F ≠ some f) {id : VolId} :
    BoundTo s' f id ↔ BoundTo s f id := by
  rw [BoundTo, BoundTo, h.filters f hf]

theorem Touches.filterOf_of_entry (h : Touches P F s s') {p : String} {id : VolId} (he : s.entries[p]? = some id) :
    filterOf s' id = filterOf s id := by
  obtain ⟨v, hv, -⟩ := s.named he
  rcases h.volumes hv with heq | ⟨-, -, hno⟩
  · exact heq
  · exact absurd he (hno p)

/-- A window that holds neither the path nor the filter of a step stays as it is. -/
theorem Window.Ok.touches {x : Window} (hx : x.Ok s) (h : Touches P F s s') (hp : ∀ p, x.path = some p → P ≠ some p)
    (hf : ∀ f, x.filter = some f → F ≠ some f) : x.Ok s' := by
  cases x with
  | idle => trivial
  | fresh p f id =>
    obtain ⟨he, hr, ext, hext, hv⟩ := hx
    exact ⟨by rw [h.entries p (hp p rfl), he], by rw [h.filterOf_of_entry he, hr], ext,
      by rw [h.filters f (hf f rfl), hext], hv⟩
  | settled p f id =>
    obtain ⟨he, hr, hb⟩ := hx
    exact ⟨by rw [h.entries p (hp p rfl), he], by rw [h.filterOf_of_entry he, hr],
      (h.boundTo_iff (hf f rfl)).mpr hb⟩
  | vacant p f old =>
    obtain ⟨he, hb⟩ := hx
    exact ⟨by rw [h.entries p (hp p rfl), he], (h.boundTo_iff (hf f rfl)).mpr hb⟩
  | renewed p f old id =>
    obtain ⟨he, hr, hb⟩ := hx
    exact ⟨by rw [h.entries p (hp p rfl), he], by rw [h.filterOf_of_entry he, hr],
      (h.boundTo_iff (hf f rfl)).mpr hb⟩
  | leaving f id =>
    obtain ⟨hno, hr, hb⟩ := hx
    obtain ⟨v, hv, hvf⟩ := Option.bind_eq_some_iff.mp hr
    refine ⟨fun p hp' => hno p (h.old hv hp'), ?_, (h.boundTo_iff (hf f rfl)).mpr hb⟩
    rcases h.volumes hv with heq | ⟨-, hF, -⟩
    · rw [heq, hr]
    · exact absurd (hF.symm.trans hvf) (hf f rfl)
  | orphan f id => exact (h.boundTo_iff (hf f rfl)).mpr hx

/-- A step of the `i`-th request that changes the state at `P` and `F` only. What it takes must be held by no
other and agree before, and what it gives back must agree afterwards. -/
theorem Owned.step (h : Owned w s) (ht : Touches P F s s') (hp : ∀ p, (w i).path = some p → P = some p)
    (hf : ∀ f, (w i).filter = some f → F = some f) (hp' : ∀ p, w'.path = some p → P = some p)
    (hf' : ∀ f, w'.filter = some f → F = some f) (hfreeP : ∀ p, P = some p → ¬ HeldBut Window.path w i p)
    (hfreeF : ∀ f, F = some f → ¬ HeldBut Window.filter w i f)
    (htakeP : ∀ p, P = some p → (w i).path ≠ some p → ∀ id, s.entries[p]? = some id → filterOf s id = F)
    (htakeF : ∀ f, F = some f → (w i).filter ≠ some f → ∀ id, BoundTo s f id →
      ∃ p, P = some p ∧ s.entries[p]? = some id)
    (hok : w'.Ok s')
    (hgiveP : ∀ p, P = some p → w'.path ≠ some p → ∀ id, s'.entries[p]? = some id →
      ∃ f, F = some f ∧ w'.filter ≠ some f ∧ filterOf s' id = some f ∧ BoundTo s' f id)
    (hgiveF : ∀ f, F = some f → w'.filter ≠ some f → ∀ id, BoundTo s' f id →
      ∃ p, P = some p ∧ w'.path ≠ some p ∧ s'.entries[p]? = some id ∧ filterOf s' id = some f) :
    Owned (Function.update w i w') s' := by
  refine ⟨⟨?_, ?_⟩, ?_, ?_, ?_⟩
  · intro p id he hnp
    rw [held_update, not_or] at hnp
    by_cases hP : P = some p
    · obtain ⟨f, hF, hw, hr, hb⟩ := hgiveP p hP hnp.1 id he
      exact ⟨f, hr, by rw [held_update, not_or]; exact ⟨hw, hfreeF f hF⟩, hb⟩
    · rw [ht.entries p hP] at he
      have hunheld : ¬ Held Window.path w p := fun hh => ((held_iff i).mp hh).elim (fun hi => hP (hp p hi)) hnp.2
      obtain ⟨f, hr, hnf, hb⟩ := h.consistent.entry he hunheld
      have hF : F ≠ some f := by
        intro hF
        obtain ⟨q, hq, heq⟩ := htakeF f hF (fun hi => hnf ⟨i, hi⟩) id hb
        exact hP (by rw [hq, entry_unique heq he])
      refine ⟨f, by rw [ht.filterOf_of_entry he, hr], ?_, (ht.boundTo_iff hF).mpr hb⟩
      rw [held_update, not_or]
      exact ⟨fun hw => hF (hf' f hw), fun ⟨j, _, hj⟩ => hnf ⟨j, hj⟩⟩
  · intro f id hb hnf
    rw [held_update, not_or] at hnf
    by_cases hF : F = some f
    · obtain ⟨p, hP, hw, he, hr⟩ := hgiveF f hF hnf.1 id hb
      exact ⟨p, he, by rw [held_update, not_or]; exact ⟨hw, hfreeP p hP⟩, hr⟩
    · rw [ht.boundTo_iff hF] at hb
      have hunheld : ¬ Held Window.filter w f := fun hh => ((held_iff i).mp hh).elim (fun hi => hF (hf f hi)) hnf.2
      obtain ⟨p, he, hnp, hr⟩ := h.consistent.bound hb hunheld
      have hP : P ≠ some p := by
        intro hP
        exact hF ((htakeP p hP (fun hi => hnp ⟨i, hi⟩) id he).symm.trans hr)
      refine ⟨p, by rw [ht.entries p hP, he], ?_, by rw [ht.filterOf_of_entry he, hr]⟩
      rw [held_update, not_or]
      exact ⟨fun hw => hP (hp' p hw), fun ⟨j, _, hj⟩ => hnp ⟨j, hj⟩⟩
  · intro j
    by_cases hji : j = i
    · subst hji
      simpa using hok
    · rw [Function.update_of_ne hji]
      exact (h.ok j).touches ht (fun p hj hP => hfreeP p hP ⟨j, hji, hj⟩) fun f hj hF => hfreeF f hF ⟨j, hji, hj⟩
  · exact h.path.update fun p hw => hfreeP p (hp' p hw)
  · exact h.filter.update fun f hw => hfreeF f (hf' f hw)

/-! ### What the operations touch -/

theorem Touches.refl (P : Option String) (F : Option FilterId) (s : State σ) : Touches P F s s :=
  ⟨fun _ _ => rfl, fun _ _ => rfl, fun _ => .inl rfl, fun _ he => he⟩

theorem filterOf_insert_of_some {v w : Volume σ} {id : VolId} (hw : s.volumes id = some w) :
    filterOf (s.insert v).2 id = filterOf s id := by
  have hlt : id < s.nextVolume := by
    by_contra hge
    rw [s.allocated id (not_lt.mp hge)] at hw
    cases hw
  rw [filterOf, filterOf, insert_volumes_of_lt hlt]

theorem touches_insert (s : State σ) (v : Volume σ) (F : Option FilterId) :
    Touches (some v.volumePath) F s (s.insert v).2 := by
  refine ⟨?_, fun _ _ => rfl, fun hw => .inl (filterOf_insert_of_some hw), ?_⟩
  · intro p hp
    rw [insert_entry, if_neg fun h => hp (congrArg some h)]
  · intro p id w hw he
    rw [insert_entry] at he
    split at he
    · obtain rfl := Option.some.inj he
      rw [s.allocated _ le_rfl] at hw
      cases hw
    · exact he

theorem touches_erase (s : State σ) (p : String) (F : Option FilterId) : Touches (some p) F s (s.erase p) := by
  refine ⟨?_, fun _ _ => rfl, fun _ => .inl rfl, ?_⟩
  · intro q hq
    rw [erase_entry, if_neg fun h => hq (congrArg some h)]
  · intro q id v hv he
    rw [erase_entry] at he
    split at he
    · cases he
    · exact he

theorem touches_modifyFilter (s : State σ) (f : FilterId) (g : DeviceExtension → DeviceExtension)
    (P : Option String) : Touches P (some f) s (s.modifyFilter f g) := by
  refine ⟨fun _ _ => rfl, ?_, fun _ => .inl rfl, fun _ he => he⟩
  intro g hg
  exact Function.update_of_ne (fun h => hg (congrArg some h.symm)) ..

theorem touches_filterBindVolume (s : State σ) (f : FilterId) (id : VolId) (P : Option String) :
    Touches P (some f) s (s.filterBindVolume f id) := touches_modifyFilter s f _ P

/-- A filter that exists is bound by binding it. -/
theorem boundTo_filterBindVolume {f : FilterId} {ext : DeviceExtension} (hext : s.filters f = some ext) (id : VolId) :
    BoundTo (s.filterBindVolume f id) f id := by
  obtain ⟨g, hg, hfilters⟩ := filterBindVolume_filters s f id
  exact ⟨g ext, by rw [hfilters, Function.update_self, hext, Option.map_some], hg ext⟩

theorem touches_detachFilter (s : State σ) (f : FilterId) (P : Option String) :
    Touches P (some f) s (s.detachFilter f) := by
  refine ⟨fun _ _ => rfl, ?_, fun _ => .inl rfl, fun _ he => he⟩
  intro g hg
  exact Function.update_of_ne (fun h => hg (congrArg some h.symm)) ..

theorem touches_createFilter (s : State σ) (lower : DeviceId) (P : Option String) :
    Touches P (some s.nextFilter) s (s.createFilter lower).2 := by
  refine ⟨fun _ _ => rfl, ?_, fun _ => .inl rfl, fun _ he => he⟩
  intro g hg
  exact Function.update_of_ne (fun h => hg (congrArg some h.symm)) ..

theorem touches_swapFilterDevice {f : FilterId} {id : VolId} (hno : ∀ p : String, s.entries[p]? ≠ some id)
    (hr : filterOf s id = some f) (P : Option String) : Touches P (some f) s (s.swapFilterDevice id).2 := by
  refine ⟨fun _ _ => rfl, fun _ _ => rfl, ?_, fun _ he => he⟩
  intro i v hv
  by_cases hi : i = id
  · subst hi
    refine .inr ⟨rfl, ?_, hno⟩
    rwa [filterOf, hv] at hr
  · left
    simp [filterOf, State.swapFilterDevice, State.modifyVolume, hi]

/-- A change to the engine of a volume touches nothing. -/
theorem touches_modifyAttached (s : State σ) (id : VolId) (g : _ → _) :
    Touches none none s (s.modifyAttached id g) := by
  refine ⟨fun _ _ => rfl, fun _ _ => rfl, ?_, fun _ he => he⟩
  intro i v hv
  left
  by_cases hi : i = id
  · subst hi
    simp [filterOf, State.modifyAttached, State.modifyVolume, hv]
  · simp [filterOf, State.modifyAttached, State.modifyVolume, hi]

/-! ### Transitions -/

/-- A step that touches nothing keeps every window. -/
theorem Owned.stay (h : Owned w s) (ht : Touches none none s s') : Owned w s' := by
  have hne : ∀ {α : Type} (x : α), (none : Option α) ≠ some x := fun x hx => by cases hx
  refine ⟨⟨?_, ?_⟩, fun i => (h.ok i).touches ht (fun _ _ => hne _) fun _ _ => hne _, h.path, h.filter⟩
  · intro p id he hp
    rw [ht.entries p (hne p)] at he
    obtain ⟨f, hr, hf, hb⟩ := h.consistent.entry he hp
    exact ⟨f, by rw [ht.filterOf_of_entry he, hr], hf, (ht.boundTo_iff (hne f)).mpr hb⟩
  · intro f id hb hf
    rw [ht.boundTo_iff (hne f)] at hb
    obtain ⟨p, he, hp, hr⟩ := h.consistent.bound hb hf
    exact ⟨p, by rw [ht.entries p (hne p), he], hp, by rw [ht.filterOf_of_entry he, hr]⟩

section Transitions

variable {p : String} {f : FilterId} {id old : VolId} {v : Volume σ} (h : Owned w s)

include h

/-- Entering a window on a free path and a free filter. -/
theorem Owned.insertFresh (hi : w i = .idle) (hv : v.filterDevice = some f) (he : s.entries[v.volumePath]? = none)
    (hu : Unbound s f) (hP : ¬ HeldBut Window.path w i v.volumePath) (hF : ¬ HeldBut Window.filter w i f) :
    Owned (Function.update w i (.fresh v.volumePath f s.nextVolume)) (s.insert v).2 := by
  apply h.step (touches_insert s v (some f))
  · simp [hi, Window.path]
  · simp [hi, Window.filter]
  · simp [Window.path]
  · simp [Window.filter]
  · rintro _ ⟨⟩
    exact hP
  · rintro _ ⟨⟩
    exact hF
  · rintro _ ⟨⟩ - id hid
    rw [he] at hid
    cases hid
  · rintro _ ⟨⟩ - id hb
    exact absurd hb (hu.not_boundTo id)
  · exact ⟨by simp [insert_entry], by simp [filterOf, hv], hu⟩
  · rintro _ ⟨⟩ hne
    exact absurd rfl hne
  · rintro _ ⟨⟩ hne
    exact absurd rfl hne

/-- The entry at an unheld path can be taken together with its filter. -/
theorem Owned.claim (hi : w i = .idle) (he : s.entries[p]? = some id) (hP : ¬ HeldBut Window.path w i p) :
    ∃ f, filterOf s id = some f ∧ Owned (Function.update w i (.settled p f id)) s := by
  have hunheld : ¬ Held Window.path w p := by
    rw [held_iff i, not_or, hi]
    exact ⟨by simp [Window.path], hP⟩
  obtain ⟨f, hr, hf, hb⟩ := h.consistent.entry he hunheld
  have hF : ¬ HeldBut Window.filter w i f := fun hh => hf ((held_iff i).mpr (.inr hh))
  refine ⟨f, hr, ?_⟩
  apply h.step (.refl (some p) (some f) s)
  · simp [hi, Window.path]
  · simp [hi, Window.filter]
  · simp [Window.path]
  · simp [Window.filter]
  · rintro _ ⟨⟩
    exact hP
  · rintro _ ⟨⟩
    exact hF
  · rintro _ ⟨⟩ - id' hid
    rw [he] at hid
    obtain rfl := Option.some.inj hid
    exact hr
  · rintro _ ⟨⟩ - id' hb'
    obtain rfl := hb.unique hb'
    exact ⟨p, rfl, he⟩
  · exact ⟨he, hr, hb⟩
  · rintro _ ⟨⟩ hne
    exact absurd rfl hne
  · rintro _ ⟨⟩ hne
    exact absurd rfl hne

/-- Inside a window that keeps its path and its filter. -/
theorem Owned.advance (ht : Touches (some p) (some f) s s') (hp : (w i).path = some p) (hf : (w i).filter = some f)
    (hp' : w'.path = some p) (hf' : w'.filter = some f) (hok : w'.Ok s') : Owned (Function.update w i w') s' := by
  apply h.step ht
  · rintro q hq
    rw [← hp, hq]
  · rintro g hg
    rw [← hf, hg]
  · rintro q hq
    rw [← hp', hq]
  · rintro g hg
    rw [← hf', hg]
  · rintro _ ⟨⟩
    exact h.path i p hp
  · rintro _ ⟨⟩
    exact h.filter i f hf
  · rintro _ ⟨⟩ hne
    exact absurd hp hne
  · rintro _ ⟨⟩ hne
    exact absurd hf hne
  · exact hok
  · rintro _ ⟨⟩ hne
    exact absurd hp' hne
  · rintro _ ⟨⟩ hne
    exact absurd hf' hne

/-- Giving the path up while it has no entry, and keeping the filter. -/
theorem Owned.keepFilter (ht : Touches (w i).path (some f) s s') (hf : (w i).filter = some f) (hp' : w'.path = none)
    (hf' : w'.filter = some f) (hok : w'.Ok s') (he : ∀ p, (w i).path = some p → s'.entries[p]? = none) :
    Owned (Function.update w i w') s' := by
  apply h.step ht
  · exact fun q hq => hq
  · rintro g hg
    rw [← hf, hg]
  · simp [hp']
  · rintro g hg
    rw [← hf', hg]
  · exact fun q hq => h.path i q hq
  · rintro _ ⟨⟩
    exact h.filter i f hf
  · exact fun q hq hne => absurd hq hne
  · rintro _ ⟨⟩ hne
    exact absurd hf hne
  · exact hok
  · rintro q hq - id hid
    rw [he q hq] at hid
    cases hid
  · rintro _ ⟨⟩ hne
    exact absurd hf' hne

theorem Owned.bindFresh (hi : w i = .fresh p f id) :
    Owned (Function.update w i (.settled p f id)) (s.filterBindVolume f id) := by
  obtain ⟨he, hr, ext, hext, -⟩ : (Window.fresh p f id).Ok s := hi ▸ h.ok i
  apply h.advance (touches_filterBindVolume s f id _) (by rw [hi]; rfl) (by rw [hi]; rfl) rfl rfl
  exact ⟨he, hr, boundTo_filterBindVolume hext id⟩

theorem Owned.eraseSettled (hi : w i = .settled p f id) :
    Owned (Function.update w i (.vacant p f id)) (s.erase p) := by
  obtain ⟨-, -, hb⟩ : (Window.settled p f id).Ok s := hi ▸ h.ok i
  apply h.advance (touches_erase s p _) (by rw [hi]; rfl) (by rw [hi]; rfl) rfl rfl
  exact ⟨by simp [erase_entry], hb⟩

theorem Owned.eraseLeaving (hi : w i = .settled p f id) :
    Owned (Function.update w i (.leaving f id)) (s.erase p) := by
  obtain ⟨he, hr, hb⟩ : (Window.settled p f id).Ok s := hi ▸ h.ok i
  have hpath : (w i).path = some p := by rw [hi]; rfl
  apply h.keepFilter (hpath ▸ touches_erase s p _) (by rw [hi]; rfl) rfl rfl
  · refine ⟨?_, hr, hb⟩
    intro q hq
    rw [erase_entry] at hq
    split at hq
    · cases hq
    · rename_i hne
      exact hne (entry_unique he hq)
  · intro q hq
    obtain rfl := Option.some.inj (hpath.symm.trans hq)
    simp [erase_entry]

theorem Owned.eraseOrphan (hi : w i = .settled p f id) :
    Owned (Function.update w i (.orphan f id)) (s.erase p) := by
  obtain ⟨-, -, hb⟩ : (Window.settled p f id).Ok s := hi ▸ h.ok i
  have hpath : (w i).path = some p := by rw [hi]; rfl
  apply h.keepFilter (hpath ▸ touches_erase s p _) (by rw [hi]; rfl) rfl rfl
  · exact hb
  · intro q hq
    obtain rfl := Option.some.inj (hpath.symm.trans hq)
    simp [erase_entry]

theorem Owned.swap (hi : w i = .leaving f id) :
    Owned (Function.update w i (.orphan f id)) (s.swapFilterDevice id).2 := by
  obtain ⟨hno, hr, hb⟩ : (Window.leaving f id).Ok s := hi ▸ h.ok i
  have hpath : (w i).path = none := by rw [hi]; rfl
  apply h.keepFilter (touches_swapFilterDevice hno hr _) (by rw [hi]; rfl) rfl rfl
  · exact hb
  · intro q hq
    rw [hpath] at hq
    cases hq

theorem Owned.insertVacant (hi : w i = .vacant v.volumePath f old) (hv : v.filterDevice = some f) :
    Owned (Function.update w i (.renewed v.volumePath f old s.nextVolume)) (s.insert v).2 := by
  obtain ⟨-, hb⟩ : (Window.vacant v.volumePath f old).Ok s := hi ▸ h.ok i
  apply h.advance (touches_insert s v _) (by rw [hi]; rfl) (by rw [hi]; rfl) rfl rfl
  exact ⟨by simp [insert_entry], by simp [filterOf, hv], hb⟩

theorem Owned.rebind (hi : w i = .renewed p f old id) :
    Owned (Function.update w i (.settled p f id)) (s.filterBindVolume f id) := by
  obtain ⟨he, hr, ext, hext, -⟩ : (Window.renewed p f old id).Ok s := hi ▸ h.ok i
  apply h.advance (touches_filterBindVolume s f id _) (by rw [hi]; rfl) (by rw [hi]; rfl) rfl rfl
  exact ⟨he, hr, boundTo_filterBindVolume hext id⟩

/-- A window whose entry and filter agree can be left. -/
theorem Owned.release (hi : w i = .settled p f id) : Owned (Function.update w i .idle) s := by
  obtain ⟨he, hr, hb⟩ : (Window.settled p f id).Ok s := hi ▸ h.ok i
  apply h.step (.refl (some p) (some f) s)
  · rintro q hq
    rw [← hq, hi]
    rfl
  · rintro g hg
    rw [← hg, hi]
    rfl
  · simp [Window.path]
  · simp [Window.filter]
  · rintro _ ⟨⟩
    exact h.path i p (by rw [hi]; rfl)
  · rintro _ ⟨⟩
    exact h.filter i f (by rw [hi]; rfl)
  · rintro _ ⟨⟩ hne
    exact absurd (by rw [hi]; rfl) hne
  · rintro _ ⟨⟩ hne
    exact absurd (by rw [hi]; rfl) hne
  · trivial
  · rintro _ ⟨⟩ - id' hid
    rw [he] at hid
    obtain rfl := Option.some.inj hid
    exact ⟨f, rfl, by simp [Window.filter], hr, hb⟩
  · rintro _ ⟨⟩ - id' hb'
    obtain rfl := hb.unique hb'
    exact ⟨p, rfl, by simp [Window.path], he, hr⟩

/-- A filter that is left unbound or deleted is given back. -/
theorem Owned.destroy (hi : w i = .orphan f id) (ht : Touches none (some f) s s') (hgone : ∀ id, ¬ BoundTo s' f id) :
    Owned (Function.update w i .idle) s' := by
  apply h.step ht
  · rw [hi]
    simp [Window.path]
  · rintro g hg
    rw [← hg, hi]
    rfl
  · simp [Window.path]
  · simp [Window.filter]
  · rintro q ⟨⟩
  · rintro _ ⟨⟩
    exact h.filter i f (by rw [hi]; rfl)
  · rintro q ⟨⟩
  · rintro _ ⟨⟩ hne
    exact absurd (by rw [hi]; rfl) hne
  · trivial
  · rintro q ⟨⟩
  · rintro _ ⟨⟩ - id' hb
    exact absurd hb (hgone id')

/-- A new filter has no volume and belongs to nobody. -/
theorem Owned.create (hi : w i = .idle) (lower : DeviceId) :
    Owned (Function.update w i .idle) (s.createFilter lower).2 := by
  have hdead : s.filters s.nextFilter = none := s.created _ le_rfl
  apply h.step (touches_createFilter s lower none)
  · rw [hi]
    simp [Window.path]
  · rw [hi]
    simp [Window.filter]
  · simp [Window.path]
  · simp [Window.filter]
  · rintro q ⟨⟩
  · rintro _ ⟨⟩ ⟨j, -, hj⟩
    exact (h.ok j).filter_exists hj hdead
  · rintro q ⟨⟩
  · rintro _ ⟨⟩ - id' ⟨ext, hext, -⟩
    rw [hdead] at hext
    cases hext
  · trivial
  · rintro q ⟨⟩
  · rintro _ ⟨⟩ - id' ⟨ext, hext, hv⟩
    rw [createFilter_filters, Function.update_self] at hext
    obtain rfl := Option.some.inj hext
    cases hv

end Transitions

end Steps

end Ownership
