import Mathlib.Data.List.Nodup

/-!
# Records as maps of named fields

A self-describing format sends a record as a map from the names of its fields to their values. The
writer may leave fields out, and the reader takes its own fields by name, in whatever order they come,
with a default for some of them. As long as the writer uses no name twice, a reader finds what was
written, and nothing else.
-/
namespace MessageMap

inductive Value where
  | nil
  | bool (b : Bool)
  | int (i : Int)
  | str (s : String)
  | bin (b : List UInt8)
  | array (vs : List Value)
  | map (es : List (String × Value))

abbrev Entries := List (String × Value)

/-- A field that is empty is left out. -/
def omitIf (empty : Bool) (v : Value) : Option Value := if empty then none else some v

/-- The entries of a record, without the fields that are left out. -/
def present (fields : List (String × Option Value)) : Entries := fields.filterMap fun f => f.2.map (f.1, ·)

section Readers

variable {α : Type}

/-- A field that has to be there, once. -/
def required (es : Entries) (name : String) (read : Value → Option α) : Option α :=
  match es.filter (·.1 = name) with
  | [e] => read e.2
  | _ => none

/-- A field with a default, at most once. -/
def optional (es : Entries) (name : String) (read : Value → Option α) (default : α) : Option α :=
  match es.filter (·.1 = name) with
  | [] => some default
  | [e] => read e.2
  | _ => none

/-- A field that keeps its zero value when it is not there; the last one counts. -/
def filled (es : Entries) (name : String) (read : Value → Option α) (zero : α) : Option α :=
  match (es.filter (·.1 = name)).getLast? with
  | none => some zero
  | some e => read e.2

end Readers

/-! ## What was written is read -/

section Written

variable {α : Type} {fields : List (String × Option Value)} {name : String} {read : Value → Option α} {default : α}

theorem filter_present_of_not_mem (h : name ∉ fields.map Prod.fst) : (present fields).filter (·.1 = name) = [] := by
  rw [List.filter_eq_nil_iff]
  intro e he heq
  obtain ⟨f, hf, hfe⟩ := List.mem_filterMap.mp he
  obtain ⟨u, -, rfl⟩ := Option.map_eq_some_iff.mp hfe
  rw [← of_decide_eq_true heq] at h
  exact h (List.mem_map_of_mem hf)

/-- The only entry of a name is that of its field. -/
theorem filter_present (hnodup : (fields.map Prod.fst).Nodup) :
    (present fields).filter (·.1 = name) = (fields.lookup name).join.toList.map (name, ·) := by
  induction fields with
  | nil => rfl
  | cons f fields ih =>
    obtain ⟨n, o⟩ := f
    obtain ⟨hnot, hnodup⟩ := List.nodup_cons.mp hnodup
    have hcons : present ((n, o) :: fields) = o.toList.map (n, ·) ++ present fields := by
      cases o <;> rfl
    rw [hcons, List.filter_append]
    by_cases hn : n = name
    · subst hn
      rw [filter_present_of_not_mem hnot, List.append_nil, List.lookup_cons_self]
      cases o <;> simp
    · rw [ih hnodup, List.lookup_cons, beq_eq_false_iff_ne.mpr (Ne.symm hn)]
      cases o <;> simp [hn]

theorem required_present (hnodup : (fields.map Prod.fst).Nodup) :
    required (present fields) name read = (fields.lookup name).join.bind read := by
  rw [required, filter_present hnodup]
  cases (fields.lookup name).join <;> rfl

theorem optional_present (hnodup : (fields.map Prod.fst).Nodup) :
    optional (present fields) name read default = (fields.lookup name).join.elim (some default) read := by
  rw [optional, filter_present hnodup]
  cases (fields.lookup name).join <;> rfl

theorem filled_present (hnodup : (fields.map Prod.fst).Nodup) :
    filled (present fields) name read default = (fields.lookup name).join.elim (some default) read := by
  rw [filled, filter_present hnodup]
  cases (fields.lookup name).join <;> rfl

/-- A default that stands for the values that are left out. -/
theorem elim_omitIf {empty : Bool} {u : Value} {x : α} (hread : read u = some x) (hdefault : empty = true → default = x) :
    (omitIf empty u).elim (some default) read = some x := by
  cases empty with
  | false => exact hread
  | true =>
    rw [← hdefault rfl]
    rfl

end Written

end MessageMap
