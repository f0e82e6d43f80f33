import Mathlib.Data.List.Induction
import SalesExplorer.Proofs.Selection.History

/-!
# Filter rows

A row has no name: an edit finds it by its place, and a removal moves the rows after it up. So a row
is followed from the addition that created it by arithmetic on its place (`follow?`), and what was
set in it is what the edits set that reached it there (`settings`).

**Theorem (`filter_rows_exact`).** The rows after any edits of an empty selection are the created
ones that can still be followed, in the order of their creation. Each holds the field and the
operator last set in it, and the value last set in it since its field was last set; a value entered
for another field is never among them.
-/

namespace SalesExplorer.Selection

/-! ## Following a row -/

/-- The place after edits of the row at a place, if it is still there. -/
def follow? (place : Nat) (es : List Edit) : Option Nat := es.foldlM (fun i e => e.move? i) place

/-- What edits set in the row that is at a place before them, the earliest first. -/
def settings (place : Nat) : List Edit → List Setting
  | [] => []
  | e :: es => (e.settingAt? place).toList ++ (e.move? place).elim [] fun i => settings i es

/-- The row that the edit at place `n` created stands at place `j` after all edits, and `own` is
what was set in it. -/
def Stands (es : List Edit) (n j : Nat) (own : List Setting) : Prop :=
  ∃ before rest, es = before ++ .addFilter :: rest ∧ before.length = n ∧
    follow? (after before).filters.length rest = some j ∧
      settings (after before).filters.length rest = own

variable {es rest : List Edit} {e : Edit} {m n i j place : Nat} {own other : List Setting}

theorem follow?_concat (place : Nat) (es : List Edit) (e : Edit) :
    follow? place (es ++ [e]) = (follow? place es).bind e.move? := by
  simp [follow?, List.foldlM_append]

theorem settings_concat (h : follow? place es = some i) (e : Edit) :
    settings place (es ++ [e]) = settings place es ++ (e.settingAt? i).toList := by
  induction es generalizing place with
  | nil =>
    obtain rfl : place = i := by simpa [follow?] using h
    cases hmove : e.move? place <;> simp [settings, hmove]
  | cons e' es ih =>
    rw [follow?, List.foldlM_cons] at h
    obtain ⟨k, hk, hes⟩ := Option.bind_eq_some_iff.1 h
    simp [settings, hk, ih hes]

/-- **One more edit.** A row that stands somewhere was just created, or it stood where the edit
moved it from. -/
theorem stands_concat_iff : Stands (es ++ [e]) n j own ↔
    (e = .addFilter ∧ n = es.length ∧ j = (after es).filters.length ∧ own = []) ∨
      ∃ i old, Stands es n i old ∧ e.move? i = some j ∧ own = old ++ (e.settingAt? i).toList := by
  apply Iff.intro
  · intro ⟨before, rest, hes, hn, hfollow, hown⟩
    rcases List.eq_nil_or_concat' rest with rfl | ⟨rest, e', rfl⟩
    · left
      obtain ⟨rfl, he⟩ := List.append_inj' hes rfl
      cases he
      exact ⟨rfl, hn.symm, by simpa [follow?, eq_comm] using hfollow, hown.symm⟩
    · right
      rw [← List.cons_append, ← List.append_assoc] at hes
      obtain ⟨rfl, he⟩ := List.append_inj' hes rfl
      cases he
      rw [follow?_concat] at hfollow
      obtain ⟨i, hi, hmove⟩ := Option.bind_eq_some_iff.1 hfollow
      exact ⟨i, _, ⟨before, rest, rfl, hn, hi, rfl⟩, hmove, hown ▸ settings_concat hi e⟩
  · intro h
    rcases h with ⟨rfl, rfl, rfl, rfl⟩ | ⟨i, old, ⟨before, rest, rfl, hn, hfollow, rfl⟩, hmove, rfl⟩
    · exact ⟨es, [], rfl, rfl, rfl, rfl⟩
    · refine ⟨before, rest ++ [e], by simp, hn, ?_, settings_concat hfollow e⟩
      rw [follow?_concat, hfollow]
      exact hmove

/-! ## What is set in a row -/

namespace Setting

def field? : Setting → Option Dimension
  | .field dimension => some dimension
  | _ => none

def operator? : Setting → Option Filter.Operator
  | .operator comparison => some comparison
  | _ => none

def value? : Setting → Option Filter.Value
  | .value entered => some entered
  | _ => none

end Setting

/-- The field last set, or the one of a fresh row. -/
def lastField (own : List Setting) : Dimension :=
  (own.reverse.findSome? Setting.field?).getD .channel

/-- The operator last set, or the one of a fresh row. -/
def lastOperator (own : List Setting) : Filter.Operator :=
  (own.reverse.findSome? Setting.operator?).getD .equals

/-- What was set since the field was last set, or since the row was created; the latest first. -/
def sinceField (own : List Setting) : List Setting := own.reverse.takeWhile (·.field?.isNone)

/-- The value last set for the field, or none. -/
def lastValue (own : List Setting) : Filter.Value :=
  ((sinceField own).findSome? Setting.value?).getD .none

theorem lastField_concat (own : List Setting) (x : Setting) :
    lastField (own ++ [x]) = x.field?.getD (lastField own) := by
  cases h : x.field? <;> simp [lastField, h]

theorem lastOperator_concat (own : List Setting) (x : Setting) :
    lastOperator (own ++ [x]) = x.operator?.getD (lastOperator own) := by
  cases h : x.operator? <;> simp [lastOperator, h]

theorem lastValue_concat (own : List Setting) (x : Setting) : lastValue (own ++ [x]) =
    if x.field?.isSome then .none else x.value?.getD (lastValue own) := by
  cases h : x.field? with
  | some _ => simp [lastValue, sinceField, h]
  | none => cases hx : x.value? <;> simp [lastValue, sinceField, h, hx]

/-- A row with everything set in it, one after another. -/
def filled (own : List Setting) : Filter.Clause := own.foldl (fun row x => x.on row) .fresh

theorem filled_concat (own : List Setting) (x : Setting) :
    filled (own ++ [x]) = x.on (filled own) := by
  simp [filled]

/-- What is in a row was set last, and its value since the field was. -/
theorem filled_eq (own : List Setting) :
    filled own = ⟨lastField own, lastOperator own, lastValue own⟩ := by
  induction own using List.reverseRecOn with
  | nil => rfl
  | append_singleton own x ih =>
    rw [filled_concat, ih, lastField_concat, lastOperator_concat, lastValue_concat]
    cases x <;> rfl

theorem filled_append_toList (own : List Setting) (x : Option Setting) :
    filled (own ++ x.toList) = Setting.inRow x (filled own) := by
  cases x with
  | none => simp [Setting.inRow]
  | some x => exact filled_concat own x

/-! ## All edits -/

/-- **The rows are the created ones that can still be followed.** -/
theorem getElem?_filters_after (es : List Edit) (j : Nat) (c : Filter.Clause) :
    (after es).filters[j]? = some c ↔ ∃ n own, Stands es n j own ∧ c = filled own := by
  induction es using List.reverseRecOn generalizing j c with
  | nil => simp [Stands]
  | append_singleton es e ih =>
    rw [after_concat, getElem?_filters_apply]
    simp only [ih, stands_concat_iff]
    apply Iff.intro
    · intro h
      rcases h with ⟨he, hj, hc⟩ | ⟨i, row, ⟨n, own, hstands, hrow⟩, hmove, hc⟩
      · exact ⟨es.length, [], .inl ⟨he, rfl, hj, rfl⟩, hc⟩
      · refine ⟨n, _, .inr ⟨i, own, hstands, hmove, rfl⟩, ?_⟩
        rw [filled_append_toList, hc, hrow]
    · intro ⟨n, own, h, hc⟩
      rcases h with ⟨he, _, hj, rfl⟩ | ⟨i, old, hstands, hmove, rfl⟩
      · exact .inl ⟨he, hj, hc⟩
      · refine .inr ⟨i, _, ⟨n, old, hstands, rfl⟩, hmove, ?_⟩
        rw [← filled_append_toList, hc]

theorem Stands.lt_length (h : Stands es n j own) : n < es.length := by
  obtain ⟨before, rest, rfl, rfl, -, -⟩ := h
  simp

theorem Stands.lt_filters_length (h : Stands es n j own) : j < (after es).filters.length := by
  have hrow := (getElem?_filters_after es j _).2 ⟨n, own, h, rfl⟩
  exact (List.getElem?_eq_some_iff.1 hrow).1

/-- An edit moves rows, but none past another. -/
theorem move?_lt {i' j' : Nat} (hi : e.move? i = some i') (hj : e.move? j = some j') (h : i < j) :
    i' < j' := by
  cases e with
  | removeFilter k =>
    rw [move?_removeFilter_eq_some_iff] at hi hj
    split_ifs at hi hj <;> omega
  | _ =>
    cases hi
    cases hj
    exact h

/-- **The rows stand in the order of their creation.** -/
theorem Stands.lt (hm : Stands es m i own) (hn : Stands es n j other) (h : m < n) : i < j := by
  induction es using List.reverseRecOn generalizing i j own other with
  | nil => exact absurd hm.lt_length (Nat.not_lt_zero m)
  | append_singleton es e ih =>
    rcases stands_concat_iff.1 hm with ⟨-, rfl, -, -⟩ | ⟨i₀, own₀, hm₀, hi, -⟩
    · have hlt := hn.lt_length
      rw [List.length_append, List.length_singleton] at hlt
      omega
    · rcases stands_concat_iff.1 hn with ⟨rfl, -, rfl, -⟩ | ⟨j₀, other₀, hn₀, hj, -⟩
      · cases hi
        exact hm₀.lt_filters_length
      · exact move?_lt hi hj (ih hm₀ hn₀)

/-- A row stands at one place, and one thing after another was set in it. -/
theorem Stands.unique (h : Stands es n i own) (h' : Stands es n j other) : i = j ∧ own = other := by
  obtain ⟨before, rest, rfl, hbefore, hi, rfl⟩ := h
  obtain ⟨before', rest', hes, hbefore', hj, rfl⟩ := h'
  obtain ⟨rfl, hrest⟩ := List.append_inj hes (hbefore.trans hbefore'.symm)
  cases hrest
  rw [hi] at hj
  exact ⟨Option.some.inj hj, rfl⟩

theorem Stands.lt_iff (hm : Stands es m i own) (hn : Stands es n j other) : m < n ↔ i < j := by
  apply Iff.intro (hm.lt hn)
  intro hij
  rcases Nat.lt_trichotomy m n with h | rfl | h
  · exact h
  · exact absurd (hm.unique hn).1 (Nat.ne_of_lt hij)
  · exact absurd (hn.lt hm h) (Nat.lt_asymm hij)

/-! ## One row at a time -/

/-- At a place without a row nothing is set and nothing is removed. -/
theorem perform_of_length_le (s : Selection) (h : s.filters.length ≤ i) :
    s.perform (.removeFilter i) = (.removed none, s) ∧
      ∀ e x, e.setting? = some (i, x) → s.perform e = (.changed false, s) := by
  refine ⟨?_, fun e x hset => ?_⟩
  · rw [perform, List.eraseIdx_of_length_le h, List.getElem?_eq_none h]
  · rw [perform_of_setting? s hset, modifyFilter, List.modify_eq_self h,
      decide_eq_false (Nat.not_lt.2 h)]

/-- A row is removed or set, and the rows before it and after it are the same in the same order. -/
theorem perform_of_filters_eq (s : Selection) {front back : List Filter.Clause}
    {row : Filter.Clause} (h : s.filters = front ++ row :: back) :
    s.perform (.removeFilter front.length) =
        (.removed (some row), { s with filters := front ++ back }) ∧
      ∀ e x, e.setting? = some (front.length, x) →
        s.perform e = (.changed true, { s with filters := front ++ x.on row :: back }) := by
  refine ⟨?_, fun e x hset => ?_⟩
  · rw [perform, h, List.eraseIdx_append_of_length_le (Nat.le_refl _), Nat.sub_self,
      List.getElem?_append_right (Nat.le_refl _), Nat.sub_self]
    rfl
  · have hlt : front.length < (front ++ row :: back).length := by simp
    rw [perform_of_setting? s hset, modifyFilter, h, decide_eq_true hlt, List.modify_eq_take_drop,
      List.take_left, List.drop_left]
    rfl

theorem perform_addFilter (s : Selection) : ∃ place,
    s.perform .addFilter = (.added place, { s with filters := s.filters ++ [.fresh] }) ∧
      (s.filters ++ [.fresh])[place]? = some .fresh :=
  ⟨s.filters.length, rfl, List.getElem?_concat_length⟩

/-- **Filter rows are exact.** A row holds what was last set in it, its value since its field was
set; rows stand in the order of their creation; an edit or a removal is about the row at its place
and leaves the others as they are; and at a place without a row it changes nothing. Each edit
answers with the row that it is about. -/
theorem filter_rows_exact (es : List Edit) :
    (∀ j c, (after es).filters[j]? = some c ↔
      ∃ n own, Stands es n j own ∧ c = ⟨lastField own, lastOperator own, lastValue own⟩) ∧
    (∀ m n i j own other, Stands es m i own → Stands es n j other → (m < n ↔ i < j)) ∧
    (∀ (s : Selection) i, s.filters.length ≤ i →
      s.perform (.removeFilter i) = (.removed none, s) ∧
        ∀ e x, e.setting? = some (i, x) → s.perform e = (.changed false, s)) ∧
    (∀ (s : Selection) front row back, s.filters = front ++ row :: back →
      s.perform (.removeFilter front.length) =
          (.removed (some row), { s with filters := front ++ back }) ∧
        ∀ e x, e.setting? = some (front.length, x) →
          s.perform e = (.changed true, { s with filters := front ++ x.on row :: back })) ∧
    ∀ s : Selection, ∃ place,
      s.perform .addFilter = (.added place, { s with filters := s.filters ++ [.fresh] }) ∧
        (s.filters ++ [.fresh])[place]? = some .fresh := by
  refine ⟨fun j c => ?_, ?_, ?_, ?_, perform_addFilter⟩
  · simp only [getElem?_filters_after, filled_eq]
  · exact fun m n i j own other hm hn => hm.lt_iff hn
  · exact fun s i h => perform_of_length_le s h
  · exact fun s front row back h => perform_of_filters_eq s h

/-- The second row becomes the first and keeps its value under another operator; the row after it
loses its value with its field; and there is no third row to set anything in. -/
theorem filter_rows_exact_shifted :
    let es : List Edit := [.addFilter, .addFilter, .setValue 1 (.single "9"), .removeFilter 0,
      .setOperator 0 .lessThan, .addFilter, .setValue 1 (.single "7"), .setField 1 .hourOfDay]
    let first : Filter.Clause := ⟨.channel, .lessThan, .single "9"⟩
    let second : Filter.Clause := ⟨.hourOfDay, .equals, .none⟩
    (after es).filters[0]? = some first ∧ (after es).filters[1]? = some second ∧
      (after es).filters.length ≤ 2 ∧
      (after es).perform (.setValue 2 (.single "0")) = (.changed false, after es) ∧
      (after es).filters = [first] ++ second :: [] ∧
      (after es).perform (.setValue 1 (.single "0")) =
        (.changed true, { after es with filters := [first, { second with value := .single "0" }] }) ∧
      (after es).perform (.removeFilter 1) =
        (.removed (some second), { after es with filters := [first] }) := by
  intro es first second
  have hfirst : Stands es 1 0 [.value (.single "9"), .operator .lessThan] :=
    ⟨[.addFilter], _, rfl, rfl, by decide, by decide⟩
  have hsecond : Stands es 5 1 [.value (.single "7"), .field .hourOfDay] :=
    ⟨es.take 5, _, rfl, rfl, by decide, by decide⟩
  have hlength : (after es).filters.length ≤ 2 := by decide
  have hrows : (after es).filters = [first] ++ second :: [] := by decide
  have hedits := (filter_rows_exact es).2.2.2.1 (after es) [first] second [] hrows
  refine ⟨?_, ?_, hlength, ?_, hrows, hedits.2 _ (.value (.single "0")) rfl, hedits.1⟩
  · exact ((filter_rows_exact es).1 0 first).2 ⟨1, _, hfirst, rfl⟩
  · exact ((filter_rows_exact es).1 1 second).2 ⟨5, _, hsecond, rfl⟩
  · exact ((filter_rows_exact es).2.2.1 (after es) 2 hlength).2 _ (.value (.single "0")) rfl

end SalesExplorer.Selection
