import Mathlib.Data.List.ReduceOption

/-!
# Tables of slots

A table is a list of slots, free or taken. A new item takes the first free slot, and a
lookup meets the items in the order of their slots, which is not the order in which they
came once slots have been given back.
-/
namespace SlotTable

variable {α : Type*}

/-- Put `a` into the first free slot. -/
def place (a : α) : List (Option α) → Option (List (Option α))
  | [] => none
  | none :: l => some (some a :: l)
  | some b :: l => (place a l).map (some b :: ·)

/-- Free the slots whose items meet `q`. -/
def clear (q : α → Bool) (l : List (Option α)) : List (Option α) := l.map (·.filter fun a => !q a)

/-- The items below the first free slot. -/
def front : List (Option α) → List α
  | some b :: l => b :: front l
  | _ => []

/-- What a placement does: the slots up to the first free one stay, and that one is taken. -/
theorem place_cases {a : α} {l l' : List (Option α)} (h : place a l = some l') :
    ∃ rest, l = (front l).map some ++ none :: rest ∧ l' = (front l).map some ++ some a :: rest := by
  induction l generalizing l' with
  | nil => cases h
  | cons o l ih =>
    cases o with
    | none =>
      obtain rfl := Option.some.inj h
      exact ⟨l, rfl, rfl⟩
    | some b =>
      rw [place, Option.map_eq_some_iff] at h
      obtain ⟨l₁, hl₁, rfl⟩ := h
      obtain ⟨rest, hl, rfl⟩ := ih hl₁
      exact ⟨rest, congrArg (some b :: ·) hl, rfl⟩

/-- A table has no place exactly when every slot is taken. -/
theorem place_eq_none_iff {a : α} {l : List (Option α)} : place a l = none ↔ l = (front l).map some := by
  induction l with
  | nil => exact ⟨fun _ => rfl, fun _ => rfl⟩
  | cons o l ih =>
    cases o with
    | none => simp [place, front]
    | some b => simp [place, front, ih]

theorem length_place {a : α} {l l' : List (Option α)} (h : place a l = some l') : l'.length = l.length := by
  obtain ⟨rest, hl, hl'⟩ := place_cases h
  rw [hl, hl']
  simp

theorem reduceOption_map_some (l : List α) : (l.map some).reduceOption = l := by
  simp [List.reduceOption]

/-- The items before and after a placement, in slot order. -/
theorem reduceOption_place {a : α} {l l' : List (Option α)} (h : place a l = some l') :
    ∃ rest, l.reduceOption = front l ++ rest ∧ l'.reduceOption = front l ++ a :: rest := by
  obtain ⟨rest, hl, hl'⟩ := place_cases h
  refine ⟨rest.reduceOption, ?_, ?_⟩
  · rw [congrArg List.reduceOption hl, List.reduceOption_append, reduceOption_map_some,
      List.reduceOption_cons_of_none]
  · rw [hl', List.reduceOption_append, reduceOption_map_some, List.reduceOption_cons_of_some]

/-- There is a place exactly when not every slot is counted. -/
theorem place_isSome_iff {a : α} {l : List (Option α)} : (place a l).isSome ↔ l.reduceOption.length < l.length := by
  cases h : place a l with
  | none =>
    have hl := place_eq_none_iff.mp h
    have hlen : l.reduceOption.length = l.length := by
      rw [congrArg List.reduceOption hl, reduceOption_map_some, congrArg List.length hl, List.length_map]
    simp [hlen]
  | some l' =>
    obtain ⟨rest, hl, hl'⟩ := reduceOption_place h
    have hle := List.reduceOption_length_le l'
    rw [length_place h, hl', List.length_append, List.length_cons] at hle
    rw [hl, List.length_append]
    simp only [Option.isSome_some, true_iff]
    omega

theorem reduceOption_clear (q : α → Bool) (l : List (Option α)) :
    (clear q l).reduceOption = l.reduceOption.filter fun a => !q a := by
  induction l with
  | nil => rfl
  | cons o l ih =>
    cases o with
    | none => simpa [clear] using ih
    | some b =>
      rw [List.reduceOption_cons_of_some, List.filter_cons, ← ih]
      cases hq : q b <;> simp [clear, Option.filter, hq]

end SlotTable
