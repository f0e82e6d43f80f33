import Mathlib.Data.List.Nodup
import Mathlib.Tactic.Common
import SalesExplorer.Selection

/-!
# Histories of a selection

The edits of a selection fall into three groups: picks, which change one of the two lists of
identifiers, changes of the filter rows, and the rest, which leave the lists and the rows alone.
What an edit does to the lists (`apply_of_pick?`, `ids_apply_of_pick?_eq_none`) and where the rows of the
next selection come from (`getElem?_filters_apply`) is said here once, for all edits; a whole
history is an induction over these steps.
-/

namespace SalesExplorer.Selection

/-- The selection that edits make of the empty one, the earliest edit first. -/
def after (es : List Edit) : Selection := es.foldl apply {}

@[simp] theorem after_nil : after [] = {} := rfl

theorem after_concat (es : List Edit) (e : Edit) : after (es ++ [e]) = (after es).apply e := by
  simp [after]

/-! ## Picks -/

/-- The two lists of identifiers. -/
inductive Side where
  | metrics
  | dimensions
  deriving DecidableEq

def ids (s : Selection) : Side → List String
  | .metrics => s.metrics
  | .dimensions => s.dimensions

/-- The selection with another list of identifiers, and everything else as it is. -/
def setIds (s : Selection) (side : Side) (ids : List String) : Selection :=
  match side with
  | .metrics => { s with metrics := ids }
  | .dimensions => { s with dimensions := ids }

/-- What a pick does with its identifier. -/
inductive Change where
  | toggle
  | add
  | remove
  deriving DecidableEq

namespace Change

/-- Whether an identifier is there after a change of it. -/
def act : Change → Bool → Bool
  | toggle, present => !present
  | add, _ => true
  | remove, _ => false

/-- The list after a change of an identifier. -/
def on : Change → List String → String → List String
  | toggle => toggling
  | add => adding
  | remove => without

end Change

/-- A change of an identifier in one of the lists. -/
structure Pick where
  side : Side
  change : Change
  id : String
  deriving DecidableEq

/-- The edit as a pick, if it is one. -/
def Edit.pick? : Edit → Option Pick
  | .toggleMetric id => some ⟨.metrics, .toggle, id⟩
  | .toggleDimension id => some ⟨.dimensions, .toggle, id⟩
  | .addMetric id => some ⟨.metrics, .add, id⟩
  | .addDimension id => some ⟨.dimensions, .add, id⟩
  | .removeMetric id => some ⟨.metrics, .remove, id⟩
  | .removeDimension id => some ⟨.dimensions, .remove, id⟩
  | _ => none

variable {e : Edit} {p : Pick} {side other : Side} {l : List String} {id : String}

@[simp] theorem ids_setIds_self (s : Selection) (side : Side) (l : List String) :
    (s.setIds side l).ids side = l := by
  cases side <;> rfl

theorem ids_setIds_of_ne (s : Selection) (l : List String) (h : other ≠ side) :
    (s.setIds side l).ids other = s.ids other := by
  cases side <;> cases other <;> first | rfl | exact absurd rfl h

/-- A pick changes its own list, and nothing else of the selection. -/
theorem apply_of_pick? (s : Selection) (h : e.pick? = some p) :
    s.apply e = s.setIds p.side (p.change.on (s.ids p.side) p.id) := by
  cases e <;> cases h <;> rfl

theorem ids_apply_of_pick?_eq_none (s : Selection) (side : Side) (h : e.pick? = none) :
    (s.apply e).ids side = s.ids side := by
  cases e with
  | pruneOrder =>
    rw [apply, perform]
    split_ifs <;> cases side <;> rfl
  | _ => cases side <;> first | rfl | cases h

/-! ### One list under a change -/

/-- A change is seen in the list only by whether its identifier is there afterwards. -/
theorem Change.on_eq (c : Change) (l : List String) (id : String) :
    c.on l id = if c.act (id ∈ l) = true then adding l id else without l id := by
  cases c with
  | toggle => by_cases h : id ∈ l <;> simp [on, act, toggling, adding, h]
  | add => rfl
  | remove => rfl

theorem mem_without {x : String} : x ∈ without l id ↔ x ∈ l ∧ x ≠ id := by
  simp [without]

theorem mem_adding {x : String} : x ∈ adding l id ↔ x ∈ l ∨ x = id := by
  unfold adding
  split_ifs with h
  · apply Iff.intro Or.inl
    intro hx
    rcases hx with hx | rfl
    · exact hx
    · exact h
  · simp

theorem Change.mem_on (c : Change) (l : List String) (id x : String) :
    x ∈ c.on l id ↔ if id = x then c.act (x ∈ l) = true else x ∈ l := by
  rw [on_eq]
  by_cases hx : id = x
  · subst hx
    cases c.act (id ∈ l) <;> simp [mem_adding, mem_without]
  · cases c.act (id ∈ l) <;> simp [mem_adding, mem_without, hx, Ne.symm hx]

/-- A change drops identifiers, or it puts one that was not there at the end. -/
theorem Change.on_sublist_or_concat (c : Change) (l : List String) (id : String) :
    (c.on l id).Sublist l ∨ id ∉ l ∧ c.on l id = l ++ [id] := by
  rw [on_eq]
  split_ifs
  · by_cases h : id ∈ l <;> simp [adding, h]
  · exact .inl List.filter_sublist

theorem Change.filter_on (c : Change) (l : List String) (id : String) :
    (c.on l id).filter (· ≠ id) = l.filter (· ≠ id) := by
  rw [on_eq]
  split_ifs
  · by_cases h : id ∈ l <;> simp [adding, h]
  · rw [without, List.filter_filter]
    congr 1
    funext x
    by_cases hx : x = id <;> simp [hx]

/-! ## Rows -/

/-- What is set in a row. -/
inductive Setting where
  | field (field : Dimension)
  | operator (operator : Filter.Operator)
  | value (value : Filter.Value)
  deriving DecidableEq

/-- The row with something set in it. -/
def Setting.on : Setting → Filter.Clause → Filter.Clause
  | .field dimension, row => row.setField dimension
  | .operator comparison, row => row.setOperator comparison
  | .value entered, row => row.setValue entered

/-- The place of the row and what is set in it, for an edit of a row. -/
def Edit.setting? : Edit → Option (Nat × Setting)
  | .setField i field => some (i, .field field)
  | .setOperator i operator => some (i, .operator operator)
  | .setValue i value => some (i, .value value)
  | _ => none

/-- What an edit sets in the row at a place. -/
def Edit.settingAt? (e : Edit) (place : Nat) : Option Setting :=
  e.setting?.bind fun x => if x.1 = place then some x.2 else none

/-- The place that the row at a place has after an edit: a removal closes up the rows after it. -/
def Edit.move? (e : Edit) (place : Nat) : Option Nat :=
  match e with
  | .removeFilter i =>
    if place < i then some place else if place = i then none else some (place - 1)
  | _ => some place

/-- The row after an edit that may have set something in it. -/
def Setting.inRow (x : Option Setting) (row : Filter.Clause) : Filter.Clause :=
  x.elim row fun x => x.on row

theorem perform_of_setting? (s : Selection) {i : Nat} {x : Setting}
    (h : e.setting? = some (i, x)) : s.perform e = s.modifyFilter i x.on := by
  cases e <;> cases h <;> rfl

theorem move?_removeFilter_eq_some_iff {i k j : Nat} :
    (Edit.removeFilter i).move? k = some j ↔ k = if j < i then j else j + 1 := by
  simp only [Edit.move?]
  split_ifs <;> simp <;> omega

theorem settingAt?_eq_none (h : e.setting? = none) (i : Nat) : e.settingAt? i = none := by
  simp [Edit.settingAt?, h]

/-- **Where the rows come from.** A row of the next selection is the fresh one of an addition, or a
row of this selection that the edit left, with what the edit set in it. -/
theorem getElem?_filters_apply (s : Selection) (e : Edit) (j : Nat) (c : Filter.Clause) :
    (s.apply e).filters[j]? = some c ↔
      (e = .addFilter ∧ j = s.filters.length ∧ c = .fresh) ∨
        ∃ i row, s.filters[i]? = some row ∧ e.move? i = some j ∧
          c = Setting.inRow (e.settingAt? i) row := by
  cases hset : e.setting? with
  | some x =>
    obtain ⟨i, x⟩ := x
    have hmove : ∀ k, e.move? k = some k := by cases e <;> cases hset <;> exact fun _ => rfl
    have hadd : e ≠ .addFilter := by cases e <;> cases hset <;> exact nofun
    rw [apply, perform_of_setting? s hset, modifyFilter, List.getElem?_modify]
    simp only [hadd, false_and, false_or, hmove, Option.some.injEq]
    by_cases hi : i = j
    · simp [Edit.settingAt?, hset, hi, Setting.inRow, @eq_comm _ c]
    · simp [Edit.settingAt?, hset, hi, Setting.inRow]
  | none =>
    simp only [settingAt?_eq_none hset, Setting.inRow, Option.elim_none]
    cases e with
    | addFilter =>
      simp only [apply, perform, Edit.move?, Option.some.injEq, true_and, List.getElem?_append,
        List.getElem?_singleton]
      split_ifs with hlt hlast
      · simp [Nat.ne_of_lt hlt]
      · simp [show j = s.filters.length by omega, @eq_comm _ c]
      · simp [show j ≠ s.filters.length by omega, show s.filters.length ≤ j by omega]
    | removeFilter i =>
      simp only [apply, perform, List.getElem?_eraseIdx, move?_removeFilter_eq_some_iff]
      split_ifs <;> simp [@eq_comm _ c]
    | setField => cases hset
    | setOperator => cases hset
    | setValue => cases hset
    | pruneOrder =>
      rw [apply, perform]
      split_ifs <;> simp [Edit.move?]
    | _ => simp [Edit.move?, apply, perform]

end SalesExplorer.Selection
