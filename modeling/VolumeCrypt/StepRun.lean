import Mathlib.Data.List.Basic

/-!
# Runs of a partial step function

A step function takes a state and an input and may refuse. A run threads a list of
inputs through it. What one step preserves a whole run preserves, and a step that
is matched by an abstract step lifts to runs.
-/
namespace StepRun

variable {σ τ ι : Type*}

def run (step : σ → ι → Option σ) : σ → List ι → Option σ
  | s, [] => some s
  | s, i :: is => (step s i).bind fun s' => run step s' is

variable {step : σ → ι → Option σ}

theorem run_cons_eq_some {s s' : σ} {i : ι} {is : List ι} :
    run step s (i :: is) = some s' ↔ ∃ t, step s i = some t ∧ run step t is = some s' := by
  rw [run, Option.bind_eq_some_iff]

theorem run_concat_eq_some {s s' : σ} {i : ι} {is : List ι} :
    run step s (is ++ [i]) = some s' ↔ ∃ t, run step s is = some t ∧ step t i = some s' := by
  induction is generalizing s with
  | nil =>
    rw [List.nil_append, run_cons_eq_some]
    constructor
    · rintro ⟨t, ht, hrest⟩
      obtain rfl := Option.some.inj hrest
      exact ⟨s, rfl, ht⟩
    · rintro ⟨t, ht, hs⟩
      obtain rfl := Option.some.inj ht
      exact ⟨s', hs, rfl⟩
  | cons j is ih =>
    rw [List.cons_append, run_cons_eq_some]
    simp only [run_cons_eq_some, ih]
    constructor
    · rintro ⟨u, hu, t, ht, hs⟩
      exact ⟨t, ⟨u, hu, ht⟩, hs⟩
    · rintro ⟨t, ⟨u, hu, ht⟩, hs⟩
      exact ⟨u, hu, t, ht, hs⟩

/-- Every input of the run meets `C` in the state it arrives at. -/
def Along (step : σ → ι → Option σ) (C : σ → ι → Prop) : σ → List ι → Prop
  | _, [] => True
  | s, i :: is => C s i ∧ ∀ s', step s i = some s' → Along step C s' is

theorem Along.cons {C : σ → ι → Prop} {s s' : σ} {i : ι} {is : List ι} (hs : step s i = some s') (hC : C s i)
    (h : Along step C s' is) : Along step C s (i :: is) := by
  refine ⟨hC, ?_⟩
  intro t ht
  rw [hs] at ht
  obtain rfl := Option.some.inj ht
  exact h

/-- What the run meets along the way it meets where a part of the run has led. -/
theorem Along.reached {C : σ → ι → Prop} {s s' : σ} {i : ι} {is js : List ι} (h : Along step C s (is ++ i :: js))
    (hrun : run step s is = some s') : C s' i := by
  induction is generalizing s with
  | nil =>
    obtain rfl := Option.some.inj hrun
    exact h.1
  | cons j is ih =>
    obtain ⟨t, ht, hrest⟩ := run_cons_eq_some.mp hrun
    exact ih (h.2 t ht) hrest

/-- An invariant that steps meeting `C` keep, and under which they meet `D`. -/
theorem Along.of_invariant {I : σ → Prop} {C D : σ → ι → Prop}
    (hstep : ∀ {s i s'}, I s → C s i → step s i = some s' → I s') (hD : ∀ {s i}, I s → C s i → D s i) {s : σ}
    {is : List ι} (h : I s) (hC : Along step C s is) : Along step D s is := by
  induction is generalizing s with
  | nil => trivial
  | cons i is ih =>
    obtain ⟨hi, his⟩ := hC
    exact ⟨hD h hi, fun s' hs => ih (hstep h hi hs) (his s' hs)⟩

/-- A relation to an abstract state that is kept by every step that meets `C` is kept by every run
whose steps all meet it. -/
theorem run_simulates_along {R : σ → τ → Prop} (spec : τ → ι → τ) {C : σ → ι → Prop}
    (hstep : ∀ {s t i s'}, R s t → C s i → step s i = some s' → R s' (spec t i)) {s s' : σ} {t : τ} {is : List ι}
    (h : R s t) (hC : Along step C s is) (hrun : run step s is = some s') : R s' (is.foldl spec t) := by
  induction is generalizing s t with
  | nil =>
    obtain rfl := Option.some.inj hrun
    exact h
  | cons i is ih =>
    obtain ⟨u, hu, hrest⟩ := run_cons_eq_some.mp hrun
    obtain ⟨hi, his⟩ := hC
    exact ih (hstep h hi hu) (his u hu) hrest

/-- A condition on the inputs alone. -/
theorem along_of_forall {C : ι → Prop} {is : List ι} (h : ∀ i ∈ is, C i) (s : σ) :
    Along step (fun _ i => C i) s is := by
  induction is generalizing s with
  | nil => trivial
  | cons i is ih => exact ⟨h i (by simp), fun s' _ => ih (fun j hj => h j (by simp [hj])) s'⟩

theorem along_true (s : σ) (is : List ι) : Along step (fun _ _ => True) s is := by
  induction is generalizing s with
  | nil => trivial
  | cons i is ih => exact ⟨trivial, fun s' _ => ih s'⟩

/-- A relation to an abstract state that every step keeps is kept by every run. -/
theorem run_simulates {R : σ → τ → Prop} (spec : τ → ι → τ)
    (hstep : ∀ {s t i s'}, R s t → step s i = some s' → R s' (spec t i)) {s s' : σ} {t : τ} {is : List ι}
    (h : R s t) (hrun : run step s is = some s') : R s' (is.foldl spec t) :=
  run_simulates_along spec (fun h _ hs => hstep h hs) h (along_true s is) hrun

end StepRun
