import Mathlib.Data.List.Pairwise
import Mathlib.Order.CompletePartialOrder
import Mathlib.Order.Interval.Set.Disjoint

/-!
# Tilings by half-open intervals

A list of half-open intervals of a linear order tiles `[lo, hi)` when no two of them
overlap and their union is `[lo, hi)`. Intervals laid end to end do so, in whatever
order they are listed.
-/
namespace IntervalTiling

variable {α : Type*} [LinearOrder α]

structure Tiles (pieces : List (α × α)) (lo hi : α) : Prop where
  disjoint : pieces.Pairwise fun p q => Disjoint (Set.Ico p.1 p.2) (Set.Ico q.1 q.2)
  cover : ∀ x, (∃ p ∈ pieces, x ∈ Set.Ico p.1 p.2) ↔ x ∈ Set.Ico lo hi

theorem Tiles.perm {ps qs : List (α × α)} {lo hi : α} (h : Tiles ps lo hi) (hp : ps.Perm qs) : Tiles qs lo hi := by
  constructor
  · exact (hp.pairwise_iff fun h => h.symm).mp h.disjoint
  · intro x
    rw [← h.cover x]
    simp only [hp.mem_iff]

/-- Each interval starts where the one before it ends. -/
inductive Chain : α → List (α × α) → α → Prop where
  | nil (a : α) : Chain a [] a
  | cons {a b c : α} {ps : List (α × α)} : a ≤ b → Chain b ps c → Chain a ((a, b) :: ps) c

namespace Chain

theorem le {a b : α} {ps : List (α × α)} (h : Chain a ps b) : a ≤ b := by
  induction h with
  | nil => exact le_rfl
  | cons hab _ ih => exact hab.trans ih

theorem append {a b c : α} {ps qs : List (α × α)} (h : Chain a ps b) (h' : Chain b qs c) : Chain a (ps ++ qs) c := by
  induction h with
  | nil => exact h'
  | cons hab _ ih => exact .cons hab (ih h')

theorem le_fst {a b : α} {ps : List (α × α)} (h : Chain a ps b) {p : α × α} (hp : p ∈ ps) : a ≤ p.1 := by
  induction h with
  | nil => cases hp
  | cons hab _ ih =>
    rcases List.mem_cons.mp hp with rfl | hp
    · exact le_rfl
    · exact hab.trans (ih hp)

/-- The values of a monotone sequence cut the range between the first and the last. -/
theorem range {f : Nat → α} (n : Nat) (hf : ∀ i, i < n → f i ≤ f (i + 1)) :
    Chain (f 0) ((List.range n).map fun i => (f i, f (i + 1))) (f n) := by
  induction n with
  | zero => exact .nil _
  | succ n ih =>
    rw [List.range_succ, List.map_append]
    exact (ih fun i hi => hf i (by omega)).append (.cons (hf n (by omega)) (.nil _))

theorem tiles {a b : α} {ps : List (α × α)} (h : Chain a ps b) : Tiles ps a b := by
  induction h with
  | nil a => exact ⟨.nil, by simp⟩
  | @cons a b c ps hab hrest ih =>
    constructor
    · refine List.pairwise_cons.mpr ⟨?_, ih.disjoint⟩
      intro p hp
      rw [Set.Ico_disjoint_Ico]
      exact (min_le_left _ _).trans ((hrest.le_fst hp).trans (le_max_right _ _))
    · intro x
      simp only [List.mem_cons, exists_eq_or_imp]
      rw [ih.cover x]
      simp only [Set.mem_Ico]
      constructor
      · rintro (⟨h₁, h₂⟩ | ⟨h₁, h₂⟩)
        · exact ⟨h₁, h₂.trans_le hrest.le⟩
        · exact ⟨hab.trans h₁, h₂⟩
      · rintro ⟨h₁, h₂⟩
        rcases lt_or_ge x b with hx | hx
        · exact .inl ⟨h₁, hx⟩
        · exact .inr ⟨hx, h₂⟩

end Chain

end IntervalTiling
