import Mathlib.Tactic.Common
import SalesExplorer.Proofs.Filter.WireDomain
import SalesExplorer.Proofs.Text.Pieces

/-!
# Values in their wire form

**Theorem (`items_of_written_list`).** A text for the list operator has exactly the items that it
writes (`Text.Writes`): joining a list with commas is undone, whatever blanks and further commas
stand around the items, and of any text nothing is lost but blanks and commas.

**Theorem (`wire_form_settled`).** The wire form of a clause is its own wire form. It is compared
with the same dimension by the same operator, it passes or fails its check as the clause does, with
the same fault, and for the list operator it has the same items. A clause has no wire form exactly
if all pieces of its value are blank.

Both rest on the items being trimmed and never empty, so that taking the items of items changes
nothing (`Value.items_many_of_plain`).
-/

namespace SalesExplorer.Filter

/-! ## Lists entered as text -/

theorem Value.items_single_eq_iff {items : List String} {text : String} :
    (single text).items = items ↔ Text.Writes (items.map String.toList) text.toList := by
  rw [← Text.pieces_eq_iff_writes, Value.items]
  constructor
  · rintro rfl
    simp
  · intro h
    simp [h]

theorem isItem_toList_iff {item : String} :
    Text.IsItem item.toList ↔ Plain item ∧ ',' ∉ item.toList := by
  rw [plain_iff_trimmed]
  constructor
  · intro h
    exact ⟨⟨h.trimmed, h.ne_nil⟩, h.comma_notMem⟩
  · rintro ⟨⟨htrimmed, hne⟩, hcomma⟩
    exact ⟨hne, hcomma, htrimmed⟩

theorem Value.items_single_intercalate {items : List String}
    (h : ∀ item ∈ items, Text.IsItem item.toList) :
    (single (",".intercalate items)).items = items := by
  rw [Value.items_single_eq_iff, String.toList_intercalate]
  exact Text.writes_intercalate (by simpa using h)

theorem Value.isItem_of_mem_items_single {text item : String} (h : item ∈ (single text).items) :
    Text.IsItem item.toList :=
  (Value.items_single_eq_iff.1 rfl).isItem _ (List.mem_map_of_mem h)

/-- **Lists entered as text.** The items of a text are those that it writes. A list of items is
recovered from its join with commas. The items of any text are trimmed, not empty and without
commas, they are recovered from their own join, and they have all characters of the text that are
neither blanks nor commas, in their order. -/
theorem items_of_written_list :
    (∀ (items : List String) (text : String),
      (Value.single text).items = items ↔ Text.Writes (items.map String.toList) text.toList) ∧
    (∀ items : List String,
      (∀ item ∈ items, item ≠ "" ∧ item.trimBlank = item ∧ ',' ∉ item.toList) →
        (Value.single (",".intercalate items)).items = items) ∧
    ∀ text : String,
      (∀ item ∈ (Value.single text).items,
        item ≠ "" ∧ item.trimBlank = item ∧ ',' ∉ item.toList) ∧
      (Value.single (",".intercalate (Value.single text).items)).items =
        (Value.single text).items ∧
      ((Value.single text).items.flatMap String.toList).filter Text.isInk =
        text.toList.filter Text.isInk := by
  have hitem : ∀ item : String, Text.IsItem item.toList ↔
      item ≠ "" ∧ item.trimBlank = item ∧ ',' ∉ item.toList := by
    intro item
    rw [isItem_toList_iff, Plain, and_comm (a := item.trimBlank = item), and_assoc]
  simp only [← hitem]
  refine ⟨fun _ _ => Value.items_single_eq_iff, fun _ => Value.items_single_intercalate,
    fun text => ⟨fun _ => Value.isItem_of_mem_items_single,
      Value.items_single_intercalate fun _ => Value.isItem_of_mem_items_single, ?_⟩⟩
  rw [(Value.items_single_eq_iff.1 rfl).filter_isInk, List.flatMap_def]

/-- Two names, one with a blank inside, and commas to spare around both. -/
theorem items_of_written_list_spaced :
    Text.Writes ["Loja A".toList, "iFood".toList] " ,Loja A ,,\tiFood, ".toList ∧
      (Value.single " ,Loja A ,,\tiFood, ").items = ["Loja A", "iFood"] ∧
      (Value.single (",".intercalate ["Loja A", "iFood"])).items = ["Loja A", "iFood"] := by
  have hitems : (Value.single " ,Loja A ,,\tiFood, ").items = ["Loja A", "iFood"] := by decide
  exact ⟨(items_of_written_list.1 _ _).1 hitems, hitems,
    items_of_written_list.2.1 _ (by decide)⟩

/-! ## Empty clauses -/

/-- The pieces of a value as it was entered. The list operator divides a text at its commas. -/
def Clause.entered (c : Clause) : List (List Char) :=
  match c.operator, c.value with
  | .within, .single text => text.toList.splitOn ','
  | _, .single text => [text.toList]
  | _, .many items => items.map String.toList

variable {c w : Clause}

theorem Value.isEmpty_items_single {text : String} : (single text).items.isEmpty = true ↔
    ∀ piece ∈ text.toList.splitOn ',', Text.trim piece = [] := by
  simp [Value.items, Text.pieces]

theorem Value.isEmpty_items_many {items : List String} : (many items).items.isEmpty = true ↔
    ∀ piece ∈ items.map String.toList, Text.trim piece = [] := by
  simp [Value.items, String.trimBlank]

theorem isEmpty_iff_entered : c.isEmpty = true ↔ ∀ piece ∈ c.entered, Text.trim piece = [] := by
  obtain ⟨field, operator, value⟩ := c
  cases value with
  | single text =>
    cases operator with
    | within => exact Value.isEmpty_items_single
    | _ => simp [Clause.isEmpty, Value.isEmpty, Clause.entered, String.isBlankText]
  | many items =>
    cases operator with
    | within => exact Value.isEmpty_items_many
    | _ => simp [Clause.isEmpty, Value.isEmpty, Clause.entered, String.isBlankText]

/-- Something but blanks was entered in some piece. -/
def Clause.Usable (c : Clause) : Prop := ∃ piece ∈ c.entered, Text.trim piece ≠ []

instance : DecidablePred Clause.Usable := fun c => List.decidableBEx _ c.entered

theorem isEmpty_eq_false_iff : c.isEmpty = false ↔ c.Usable := by
  rw [← Bool.not_eq_true, isEmpty_iff_entered, Clause.Usable]
  simp only [not_forall, ne_eq, exists_prop]

theorem isEmpty_of_within (hop : c.operator = .within) :
    c.isEmpty = c.value.items.isEmpty := by
  rw [Clause.isEmpty, hop]

theorem isEmpty_of_ne_within (hop : c.operator ≠ .within) : c.isEmpty = c.value.isEmpty := by
  unfold Clause.isEmpty
  split
  · contradiction
  · rfl

theorem normalized?_eq_none_iff : c.normalized? = none ↔ c.isEmpty = true := by
  unfold Clause.normalized?
  cases c.isEmpty <;> simp

/-! ## Items that a clause considers -/

def Value.isList : Value → Bool
  | single _ => false
  | many _ => true

/-- The pieces that were entered, trimmed. Blank ones count only for a text as a whole. -/
def Clause.considered (c : Clause) : List String :=
  let pieces := c.entered.map fun piece => String.ofList (Text.trim piece)
  if c.operator = .within ∨ c.value.isList then pieces.filter (· ≠ "") else pieces

/-- Leaving out the blank pieces before or after they are made texts is the same. -/
theorem map_ofList_filter (pieces : List (List Char)) :
    ((pieces.map Text.trim).filter (!·.isEmpty)).map String.ofList =
      (pieces.map fun piece => String.ofList (Text.trim piece)).filter (· ≠ "") := by
  rw [List.filter_map, List.filter_map, List.map_map]
  congr 1
  apply List.filter_congr
  intro piece _
  cases h : Text.trim piece <;> simp [h]

theorem checkedItems_eq_considered (c : Clause) : c.checkedItems = c.considered := by
  obtain ⟨field, operator, value⟩ := c
  cases value with
  | single text =>
    by_cases hop : operator = .within
    · subst hop
      exact map_ofList_filter _
    · rw [Clause.checkedItems_of_single hop rfl]
      simp [Clause.considered, hop, Value.isList, Clause.entered, String.trimBlank]
  | many items =>
    rw [Clause.checkedItems_of_many rfl]
    have hentered : Clause.entered ⟨field, operator, .many items⟩ = items.map String.toList := by
      cases operator <;> rfl
    simp only [Clause.considered, hentered, Value.isList, Value.items, or_true, if_true,
      List.map_map]
    apply List.filter_congr
    intro t _
    rw [Bool.eq_iff_iff]
    simp

/-! ## The wire form of a wire form -/

theorem checkedItems_of_within (hop : c.operator = .within) : c.checkedItems = c.value.items := by
  rw [Clause.checkedItems, hop]

theorem items_of_normalized? (h : c.normalized? = some w) (hop : c.operator = .within) :
    w.value.items = c.value.items := by
  obtain ⟨-, rfl⟩ := Clause.normalized?_eq_some_iff.1 h
  show c.wireValue.items = _
  rw [Clause.wireValue_of_within hop]
  exact Value.items_many_of_plain fun t ht => Value.plain_of_mem_items ht

theorem checkedItems_of_normalized? (h : c.normalized? = some w) :
    w.field = c.field ∧ w.checkedItems = c.checkedItems := by
  obtain ⟨-, hw⟩ := Clause.normalized?_eq_some_iff.1 h
  refine ⟨by rw [hw], ?_⟩
  by_cases hop : c.operator = .within
  · rw [checkedItems_of_within hop, checkedItems_of_within (by rw [hw, hop]),
      items_of_normalized? h hop]
  · subst hw
    cases hv : c.value with
    | single text =>
      rw [Clause.checkedItems_of_single hop hv,
        Clause.checkedItems_of_single (by exact hop) (Clause.wireValue_of_single hop hv),
        text.trimBlank_trimBlank]
    | many items =>
      rw [Clause.checkedItems_of_many hv,
        Clause.checkedItems_of_many (Clause.wireValue_of_many hop hv)]

/-- A clause is checked by its dimension and by the items to check alone. -/
theorem check_of_normalized? (h : c.normalized? = some w) : w.check = c.check := by
  obtain ⟨hfield, hitems⟩ := checkedItems_of_normalized? h
  rw [Clause.check, hfield, hitems, Clause.check]

theorem isEmpty_of_normalized? (h : c.normalized? = some w) : w.isEmpty = false := by
  obtain ⟨hne, hw⟩ := Clause.normalized?_eq_some_iff.1 h
  rw [← hne]
  by_cases hop : c.operator = .within
  · rw [isEmpty_of_within hop, isEmpty_of_within (by rw [hw, hop]), items_of_normalized? h hop]
  · subst hw
    rw [isEmpty_of_ne_within hop, isEmpty_of_ne_within (by exact hop)]
    cases hv : c.value with
    | single text =>
      rw [Clause.wireValue_of_single hop hv, Value.isEmpty, Value.isEmpty, String.isBlankText,
        text.toList_trimBlank, Text.trim_trim, String.isBlankText]
    | many items => rw [Clause.wireValue_of_many hop hv]

theorem wireValue_of_normalized? (h : c.normalized? = some w) : w.wireValue = w.value := by
  have hw := (Clause.normalized?_eq_some_iff.1 h).2
  by_cases hop : c.operator = .within
  · rw [Clause.wireValue_of_within (by rw [hw, hop]), items_of_normalized? h hop, hw,
      Clause.wireValue_of_within hop]
  · subst hw
    cases hv : c.value with
    | single text =>
      have hwire := Clause.wireValue_of_single hop hv
      rw [Clause.wireValue_of_single (by exact hop) hwire, hwire, text.trimBlank_trimBlank]
    | many items =>
      have hwire := Clause.wireValue_of_many hop hv
      rw [Clause.wireValue_of_many (by exact hop) hwire, hwire]

theorem normalized?_normalized? (h : c.normalized? = some w) : w.normalized? = some w := by
  rw [Clause.normalized?_eq_some_iff, wireValue_of_normalized? h]
  exact ⟨isEmpty_of_normalized? h, rfl⟩

/-- **The wire form is settled.** It has dimension and operator of the clause, it is not empty, it
is its own wire form, the list operator finds the same items in it, and its check comes out the
same, fault and all. There is none exactly if every piece that was entered is blank. -/
theorem wire_form_settled (c : Clause) :
    (∀ w, c.normalized? = some w →
      w.field = c.field ∧ w.operator = c.operator ∧ w.isEmpty = false ∧ w.normalized? = some w ∧
      (c.operator = .within → w.value.items = c.value.items) ∧ w.check = c.check) ∧
    (c.normalized? = none ↔ ∀ piece ∈ c.entered, Text.trim piece = []) := by
  refine ⟨fun w h => ?_, normalized?_eq_none_iff.trans isEmpty_iff_entered⟩
  have hw := (Clause.normalized?_eq_some_iff.1 h).2
  exact ⟨by rw [hw], by rw [hw], isEmpty_of_normalized? h, normalized?_normalized? h,
    items_of_normalized? h, check_of_normalized? h⟩

/-- Hours as a text to split, one of them outside the domain, and a list of blanks. -/
theorem wire_form_settled_refused :
    let c : Clause := ⟨.hourOfDay, .within, .single " 7, ,24"⟩
    let w : Clause := ⟨.hourOfDay, .within, .many ["7", "24"]⟩
    let blank : Clause := ⟨.hourOfDay, .equals, .many [" ", "\t"]⟩
    c.normalized? = some w ∧ w.normalized? = some w ∧
      w.check = .error (.validation (.hour "24")) ∧ c.check = w.check ∧
      (∀ piece ∈ blank.entered, Text.trim piece = []) ∧ blank.normalized? = none := by
  intro c w blank
  have hc : c.normalized? = some w := by decide
  have hblank : ∀ piece ∈ blank.entered, Text.trim piece = [] := by decide
  obtain ⟨-, -, -, hself, -, hcheck⟩ := (wire_form_settled c).1 w hc
  exact ⟨hc, hself, by rfl, hcheck.symm, hblank, (wire_form_settled blank).2.2 hblank⟩

end SalesExplorer.Filter
