import Mathlib.Tactic.Common
import SalesExplorer.Proofs.Selection.Composition
import SalesExplorer.Proofs.Text.Digits
import SalesExplorer.Proofs.Text.Trim

/-!
# The domain of what goes on the wire

A clause is checked by its items, which are trimmed and never blank, while its value goes on the
wire by itself. **The two agree** for a list operator and for a value entered as text, because the
wire form is already trimmed there (`Clause.wire_cases`). A list under another operator goes on the
wire as it was entered.

**Theorem (`wire_texts_inDomain_iff`).** In a composed query every text with something in it lies
in the domain of its dimension once it is trimmed. All texts lie in it as they stand exactly if
every list for a weekday or an hour, under an operator other than the list operator, holds neither
blanks around an item nor an item of blanks alone.

That such a list gets through is `query_admits_padded_weekday`.
-/

namespace SalesExplorer.Filter

/-! ## Items -/

/-- The texts that a value carries. -/
def Value.texts : Value → List String
  | single text => [text]
  | many items => items

/-- Trimming leaves the text as it is, and it is not empty. -/
def Plain (text : String) : Prop := text.trimBlank = text ∧ text ≠ ""

theorem plain_iff_trimmed {text : String} :
    Plain text ↔ Text.Trimmed text.toList ∧ text.toList ≠ [] := by
  rw [Plain, String.trimBlank_eq_self_iff, Ne, Ne, String.toList_eq_nil_iff]

theorem plain_trimBlank {text : String} (h : text.trimBlank ≠ "") : Plain text.trimBlank :=
  ⟨text.trimBlank_trimBlank, h⟩

theorem Value.mem_items_many {items : List String} {t : String} :
    t ∈ (many items).items ↔ ∃ u ∈ items, u.trimBlank = t ∧ t ≠ "" := by
  simp only [Value.items, List.mem_filter, List.mem_map]
  constructor
  · rintro ⟨⟨u, hu, rfl⟩, hne⟩
    exact ⟨u, hu, rfl, by simpa using hne⟩
  · rintro ⟨u, hu, rfl, hne⟩
    exact ⟨⟨u, hu, rfl⟩, by simpa using hne⟩

theorem Value.plain_of_mem_items {v : Value} {t : String} (h : t ∈ v.items) : Plain t := by
  cases v with
  | single text =>
    obtain ⟨piece, hpiece, rfl⟩ := List.mem_map.1 h
    obtain ⟨hmem, hne⟩ := List.mem_filter.1 hpiece
    obtain ⟨u, -, rfl⟩ := List.mem_map.1 hmem
    rw [plain_iff_trimmed, String.toList_ofList]
    exact ⟨Text.trimmed_trim u, by simpa using hne⟩
  | many items =>
    obtain ⟨u, -, rfl, hne⟩ := Value.mem_items_many.1 h
    exact plain_trimBlank hne

theorem Value.items_many_of_plain {items : List String} (h : ∀ t ∈ items, Plain t) :
    (many items).items = items := by
  have hmap : items.map (·.trimBlank) = items := by
    conv_rhs => rw [← List.map_id items]
    exact List.map_congr_left fun t ht => (h t ht).1
  rw [Value.items, hmap, List.filter_eq_self]
  intro t ht
  simpa using (h t ht).2

/-! ## Domains -/

/-- The number that an optional plus sign and decimal digits write. -/
def natural? (s : List Char) : Option Nat :=
  let ds := match s with
    | '+' :: ds => ds
    | ds => ds
  if ds.isEmpty || !ds.all isDigit then none else some (ofDigits ds)

/-- The texts that a dimension allows: an hour is written as a number up to 23, a weekday as one of
seven digits, and the other dimensions allow every text. -/
def InDomain : Dimension → String → Prop
  | .hourOfDay, text => ∃ n, natural? text.toList = some n ∧ n ≤ 23
  | .dayOfWeek, text => text ∈ ["1", "2", "3", "4", "5", "6", "7"]
  | _, _ => True

theorem le_foldl_digits (ds : List Char) (n : Nat) :
    n ≤ ds.foldl (fun n c => 10 * n + digitValue c) n := by
  induction ds generalizing n with
  | nil => exact le_rfl
  | cons c ds ih =>
    have hle := ih (10 * n + digitValue c)
    rw [List.foldl_cons]
    omega

/-- Digit by digit, a number is read as long as it fits. Once it does not, it never fits again. -/
theorem foldlM_pushDigit?_eq_some_iff {ds : List Char} {n m : Nat} (hn : n < UInt8.size) :
    ds.foldlM pushDigit? n = some m ↔ ds.all isDigit = true ∧
      ds.foldl (fun n c => 10 * n + digitValue c) n = m ∧ m < UInt8.size := by
  induction ds generalizing n with
  | nil =>
    simp only [List.foldlM_nil, pure, Option.some_inj, List.all_nil, List.foldl_nil, true_and]
    constructor
    · intro h
      exact ⟨h, h ▸ hn⟩
    · exact And.left
  | cons c ds ih =>
    rw [List.foldlM_cons, List.all_cons, List.foldl_cons, Bool.and_eq_true]
    by_cases hfits : 10 * n + digitValue c < UInt8.size
    · by_cases hc : isDigit c = true
      · simp [pushDigit?, hc, hfits, ih hfits]
      · simp [pushDigit?, hc]
    · have hle := le_foldl_digits ds (10 * n + digitValue c)
      simp only [pushDigit?, hfits, decide_false, Bool.and_false, Bool.false_eq_true, if_false,
        bind, Option.bind_none, reduceCtorEq, false_iff, not_and, not_lt]
      omega

/-- A number of 8 bits is read where the number that is written has 8 bits. -/
theorem byte?_eq_some_iff {s : List Char} {n : Nat} :
    byte? s = some n ↔ natural? s = some n ∧ n < UInt8.size := by
  have hdigits : ∀ ds : List Char, (if ds.isEmpty then none else ds.foldlM pushDigit? 0) = some n ↔
      (if ds.isEmpty || !ds.all isDigit then none else some (ofDigits ds)) = some n ∧
        n < UInt8.size := by
    intro ds
    cases ds.isEmpty with
    | true => simp
    | false =>
      rw [if_neg Bool.false_ne_true, foldlM_pushDigit?_eq_some_iff (by decide), ← ofDigits]
      cases ds.all isDigit <;> simp
  exact hdigits _

theorem isHour_iff {t : String} : isHour t ↔ InDomain .hourOfDay t := by
  have hsize : lastHour < UInt8.size := by decide
  unfold isHour InDomain
  simp only [Option.any_eq_true, byte?_eq_some_iff, decide_eq_true_eq]
  constructor
  · intro ⟨n, ⟨hn, _⟩, hle⟩
    exact ⟨n, hn, hle⟩
  · intro ⟨n, hn, hle⟩
    exact ⟨n, ⟨hn, Nat.lt_of_le_of_lt hle hsize⟩, hle⟩

theorem isWeekday_iff {t : String} : isWeekday t ↔ InDomain .dayOfWeek t := by
  constructor
  · intro h
    obtain ⟨day, hday, hvalue⟩ := List.any_eq_true.1 h
    have hall : ∀ day ∈ weekdays, InDomain .dayOfWeek day.value := by
      unfold InDomain
      decide
    exact eq_of_beq hvalue ▸ hall day hday
  · intro h
    have hall : ∀ t ∈ ["1", "2", "3", "4", "5", "6", "7"], isWeekday t = true := by decide
    exact hall t h

theorem violation?_eq_none_iff {d : Dimension} {t : String} :
    Clause.violation? d t = none ↔ InDomain d t := by
  cases d with
  | hourOfDay =>
    rw [← isHour_iff]
    simp [Clause.violation?]
  | dayOfWeek =>
    rw [← isWeekday_iff]
    simp [Clause.violation?]
  | _ => simp [Clause.violation?, InDomain]

theorem check_eq_ok_iff {c : Clause} :
    c.check = .ok () ↔ ∀ t ∈ c.checkedItems, InDomain c.field t := by
  simp only [← violation?_eq_none_iff]
  rw [← List.findSome?_eq_none_iff, Clause.check]
  cases c.checkedItems.findSome? (Clause.violation? c.field) <;> simp

theorem not_isBlank_of_natural? {s : List Char} {n : Nat} (h : natural? s = some n) :
    s ≠ [] ∧ ∀ c ∈ s, Text.isBlank c = false := by
  have hdigits : ∀ ds : List Char, (if ds.isEmpty || !ds.all isDigit then none
      else some (ofDigits ds)) = some n → ds ≠ [] ∧ ∀ c ∈ ds, Text.isBlank c = false := by
    intro ds hds
    split_ifs at hds with hcond
    simp only [Bool.or_eq_true, Bool.not_eq_true', not_or, Bool.not_eq_false, List.all_eq_true,
      List.isEmpty_iff] at hcond
    exact ⟨hcond.1, fun c hc => isBlank_of_isDigit (hcond.2 c hc)⟩
  unfold natural? at h
  split at h
  · obtain ⟨-, hall⟩ := hdigits _ h
    exact ⟨List.cons_ne_nil _ _, List.forall_mem_cons.2 ⟨by decide, hall⟩⟩
  · exact hdigits _ h

theorem plain_of_inDomain {d : Dimension} {t : String} (hd : d = .dayOfWeek ∨ d = .hourOfDay)
    (h : InDomain d t) : Plain t := by
  rcases hd with rfl | rfl
  · have hall : ∀ t ∈ ["1", "2", "3", "4", "5", "6", "7"], t.trimBlank = t ∧ t ≠ "" := by decide
    exact hall t h
  · obtain ⟨n, hn, -⟩ := h
    obtain ⟨hne, hall⟩ := not_isBlank_of_natural? hn
    exact plain_iff_trimmed.2 ⟨Text.trimmed_of_forall hall, hne⟩

theorem inDomain_of_open {d : Dimension} (hd : ¬(d = .dayOfWeek ∨ d = .hourOfDay)) (t : String) :
    InDomain d t := by
  cases d with
  | dayOfWeek => exact absurd (.inl rfl) hd
  | hourOfDay => exact absurd (.inr rfl) hd
  | _ => trivial

/-! ## Wire forms -/

namespace Clause

variable {c w : Clause}

theorem normalized?_eq_some_iff :
    c.normalized? = some w ↔ c.isEmpty = false ∧ w = { c with value := c.wireValue } := by
  unfold normalized?
  cases c.isEmpty <;> simp [eq_comm]

theorem wireValue_of_within (hop : c.operator = .within) : c.wireValue = .many c.value.items := by
  rw [wireValue, hop]

theorem wireValue_of_single (hop : c.operator ≠ .within) {text : String}
    (hv : c.value = .single text) : c.wireValue = .single text.trimBlank := by
  unfold wireValue
  split <;> simp_all

theorem wireValue_of_many (hop : c.operator ≠ .within) {items : List String}
    (hv : c.value = .many items) : c.wireValue = .many items := by
  unfold wireValue
  split <;> simp_all

theorem checkedItems_of_single (hop : c.operator ≠ .within) {text : String}
    (hv : c.value = .single text) : c.checkedItems = [text.trimBlank] := by
  unfold checkedItems
  split <;> simp_all

theorem checkedItems_of_many {items : List String} (hv : c.value = .many items) :
    c.checkedItems = (Value.many items).items := by
  unfold checkedItems
  split <;> simp_all

/-- The three wire forms: a trimmed text, a list that the list operator has split, and a list under
another operator, about which nothing is known. -/
theorem wire_cases (h : c.normalized? = some w) :
    (w.operator ≠ .within ∧ ∃ text, w.value = .single text ∧ text.trimBlank = text) ∨
    (w.operator = .within ∧ ∃ items, w.value = .many items ∧ ∀ t ∈ items, Plain t) ∨
    (w.operator ≠ .within ∧ ∃ items, w.value = .many items) := by
  obtain ⟨-, rfl⟩ := normalized?_eq_some_iff.1 h
  by_cases hop : c.operator = .within
  · exact .inr (.inl ⟨hop, _, wireValue_of_within hop, fun t ht => Value.plain_of_mem_items ht⟩)
  · cases hv : c.value with
    | single text => exact .inl ⟨hop, _, wireValue_of_single hop hv, text.trimBlank_trimBlank⟩
    | many items => exact .inr (.inr ⟨hop, items, wireValue_of_many hop hv⟩)

/-- After trimming, every text of a checked wire form lies in the domain or is empty. -/
theorem inDomain_trimBlank (h : c.normalized? = some w) (hcheck : w.check = .ok ()) {t : String}
    (ht : t ∈ w.value.texts) (hne : t.trimBlank ≠ "") : InDomain w.field t.trimBlank := by
  rw [check_eq_ok_iff] at hcheck
  have hmany : ∀ items, w.value = .many items → InDomain w.field t.trimBlank := by
    intro items hv
    rw [hv] at ht
    rw [checkedItems_of_many hv] at hcheck
    exact hcheck _ (Value.mem_items_many.2 ⟨t, ht, rfl, hne⟩)
  rcases wire_cases h with ⟨hop, text, hv, -⟩ | ⟨-, items, hv, -⟩ | ⟨-, items, hv⟩
  · rw [hv] at ht
    rw [checkedItems_of_single hop hv] at hcheck
    obtain rfl := List.mem_singleton.1 ht
    exact hcheck _ List.mem_cons_self
  · exact hmany items hv
  · exact hmany items hv

/-- As they stand, the texts of a checked wire form lie in the domain exactly if there is nothing
to trim in a list that the list operator has not split. -/
theorem texts_inDomain_iff (h : c.normalized? = some w) (hcheck : w.check = .ok ()) :
    (∀ t ∈ w.value.texts, InDomain w.field t) ↔
      (w.field = .dayOfWeek ∨ w.field = .hourOfDay → w.operator ≠ .within →
        ∀ items, w.value = .many items → ∀ t ∈ items, Plain t) := by
  constructor
  · intro hall hd _ items hv t ht
    rw [hv] at hall
    exact plain_of_inDomain hd (hall t ht)
  · intro hplain
    rw [check_eq_ok_iff] at hcheck
    rcases wire_cases h with ⟨hop, text, hv, htrim⟩ | ⟨-, items, hv, hitems⟩ | ⟨hop, items, hv⟩
    · rw [checkedItems_of_single hop hv, htrim] at hcheck
      rw [hv]
      exact hcheck
    · rw [checkedItems_of_many hv, Value.items_many_of_plain hitems] at hcheck
      rw [hv]
      exact hcheck
    · by_cases hd : w.field = .dayOfWeek ∨ w.field = .hourOfDay
      · rw [checkedItems_of_many hv, Value.items_many_of_plain (hplain hd hop items hv)] at hcheck
        rw [hv]
        exact hcheck
      · exact fun t _ => inDomain_of_open hd t

end Clause

/-! ## Composed queries -/

/-- **What reaches the wire.** In a composed query every text that is not blank lies in the domain
of its dimension once trimmed, and all texts of a clause lie in it as they stand exactly if a list
for a weekday or an hour, under an operator other than the list operator, has only items without
blanks around them and none of blanks alone. -/
theorem wire_texts_inDomain_iff {s : Selection} {q : Query} (h : s.query = .ok q) :
    ∀ w ∈ q.filters,
      (∀ t ∈ w.value.texts, t.trimBlank ≠ "" → InDomain w.field t.trimBlank) ∧
      ((∀ t ∈ w.value.texts, InDomain w.field t) ↔
        (w.field = .dayOfWeek ∨ w.field = .hourOfDay → w.operator ≠ .within →
          ∀ items, w.value = .many items → ∀ t ∈ items, t.trimBlank = t ∧ t ≠ "")) := by
  intro w hw
  obtain ⟨-, -, hfs, -⟩ := Selection.query_eq_ok_iff.1 h
  obtain ⟨hfilters, hchecked⟩ := Selection.resolveFilters_eq_ok_iff.1 hfs
  rw [hfilters] at hw
  obtain ⟨c, -, hc⟩ := List.mem_filterMap.1 hw
  have hcheck := hchecked w (hfilters ▸ hw)
  exact ⟨fun t => Clause.inDomain_trimBlank hc hcheck, Clause.texts_inDomain_iff hc hcheck⟩

/-- Hours as text, weekdays as a text to split, and weekdays as a list without blanks. -/
theorem wire_texts_inDomain_iff_three :
    let s : Selection :=
      { metrics := ["count_sale_id"]
        dimensions := ["store_name"]
        filters := [⟨.hourOfDay, .greaterThan, .single " +07 "⟩, ⟨.dayOfWeek, .within, .single "1, 6"⟩,
          ⟨.dayOfWeek, .notEquals, .many ["2", "3"]⟩] }
    let q : Query :=
      { metrics := [⟨"sale_id", .count, "count_sale_id"⟩]
        dimensions := [.store]
        filters := [⟨.hourOfDay, .greaterThan, .single "+07"⟩, ⟨.dayOfWeek, .within, .many ["1", "6"]⟩,
          ⟨.dayOfWeek, .notEquals, .many ["2", "3"]⟩] }
    s.query = .ok q ∧ ∀ w ∈ q.filters, ∀ t ∈ w.value.texts, InDomain w.field t := by
  intro s q
  have h : s.query = .ok q := by rfl
  refine ⟨h, fun w hw => (wire_texts_inDomain_iff h w hw).2.2 fun _ hop items hv => ?_⟩
  simp only [q, List.mem_cons, List.not_mem_nil, or_false] at hw
  rcases hw with rfl | rfl | rfl
  · cases hv
  · exact absurd rfl hop
  · cases hv
    decide

/-- A weekday with blanks around it, in a list under an operator other than the list operator. -/
theorem query_admits_padded_weekday : ¬ ∀ (s : Selection) (q : Query), s.query = .ok q →
    ∀ w ∈ q.filters, ∀ t ∈ w.value.texts, InDomain w.field t := by
  intro h
  have hpadded := h
    { metrics := ["count_sale_id"], dimensions := ["store_name"]
      filters := [⟨.dayOfWeek, .equals, .many [" 1 "]⟩] } _ (by rfl)
    ⟨.dayOfWeek, .equals, .many [" 1 "]⟩ List.mem_cons_self " 1 " List.mem_cons_self
  unfold InDomain at hpadded
  exact absurd hpadded (by decide)

end SalesExplorer.Filter
