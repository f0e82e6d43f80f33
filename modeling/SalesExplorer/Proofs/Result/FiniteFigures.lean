import SalesExplorer.Headline
import SalesExplorer.Proofs.Binary64.Numeral
import SalesExplorer.Result.Table

/-!
# Figures that are not finite

A chart plots, and a card shows, the number that a value is read as. A number of JSON is finite, but
a text is read as what it writes, and that may be a name of infinity or of the non-number, or a
numeral beyond the format.

**Theorem (`figures_finite_iff`).** Exactly such values (`Json.IsBeyond`) put a number into a chart
or on a card that is not finite. Exactly the numerals within the format (`Json.IsFigure`) put a
finite one into a chart, and all other values count as no number: the point has no value, and the
card shows zero.

So a figure need not be finite (`figure_not_finite`).
-/

namespace SalesExplorer

open Binary64

/-! ## Values that are read as numbers -/

/-- An integer, a number or a text that writes a numeral, within the format. -/
inductive Json.IsFigure : Json → Prop
  | int {n : ℤ} : ¬overflow ≤ n.natAbs → IsFigure (.int n)
  | float (x : Finite) : IsFigure (.float x)
  | numeral {s : String} {negative : Bool} {body : List Char} {digits : ℕ} {scale : ℤ} :
      Signed (Text.trim s.toList) negative body → WritesMagnitude body digits scale →
      ¬overflow ≤ numeralValue digits scale → IsFigure (.str s)

/-- An integer or a text that writes a numeral beyond the format, or a name. -/
inductive Json.IsBeyond : Json → Prop
  | int {n : ℤ} : overflow ≤ n.natAbs → IsBeyond (.int n)
  | numeral {s : String} {negative : Bool} {body : List Char} {digits : ℕ} {scale : ℤ} :
      Signed (Text.trim s.toList) negative body → WritesMagnitude body digits scale →
      overflow ≤ numeralValue digits scale → IsBeyond (.str s)
  | name {s : String} {negative : Bool} {body : List Char} :
      Signed (Text.trim s.toList) negative body → IsName body → IsBeyond (.str s)

variable {v : Json}

theorem numericValue?_str (s : String) :
    numericValue? (.str s) = ofNumeral? (Text.trim s.toList) := rfl

theorem Json.IsFigure.exists_finite (h : v.IsFigure) : ∃ x, numericValue? v = some (.finite x) := by
  cases h with
  | @int n hn =>
    rcases ofInt_cases n with ⟨hle, -⟩ | ⟨-, x, hx⟩
    · exact absurd hle hn
    · exact ⟨x, congrArg some hx⟩
  | float x => exact ⟨x, rfl⟩
  | @numeral s negative body digits scale hsign hwrites hvalue =>
    rcases ofDecimal_cases negative digits scale with ⟨hle, -⟩ | ⟨-, x, hx⟩
    · exact absurd hle hvalue
    · rw [numericValue?_str]
      exact ⟨x, ofNumeral?_eq_some_iff.2 ⟨negative, body, hsign, .inr ⟨_, _, hwrites, hx⟩⟩⟩

theorem Json.IsBeyond.exists_not_finite (h : v.IsBeyond) :
    ∃ x, numericValue? v = some x ∧ x.finite? = none := by
  cases h with
  | @int n hn =>
    rcases ofInt_cases n with ⟨-, hx⟩ | ⟨hlt, -⟩
    · exact ⟨_, congrArg some hx, rfl⟩
    · exact absurd hn hlt
  | @numeral s negative body digits scale hsign hwrites hvalue =>
    rcases ofDecimal_cases negative digits scale with ⟨-, hx⟩ | ⟨hlt, -⟩
    · rw [numericValue?_str]
      exact ⟨_, ofNumeral?_eq_some_iff.2 ⟨negative, body, hsign, .inr ⟨_, _, hwrites, hx⟩⟩, rfl⟩
    · exact absurd hvalue hlt
  | @name s negative body hsign hname =>
    obtain ⟨x, hx⟩ := Option.ne_none_iff_exists'.1 (mt named?_eq_none_iff.1 (not_not.2 hname))
    rw [numericValue?_str]
    exact ⟨x, ofNumeral?_eq_some_iff.2 ⟨negative, body, hsign, .inl hx⟩, finite?_of_named? hx⟩

theorem isFigure_or_isBeyond {x : Binary64} (h : numericValue? v = some x) :
    v.IsFigure ∨ v.IsBeyond := by
  cases v with
  | int n =>
    by_cases hn : overflow ≤ n.natAbs
    · exact .inr (.int hn)
    · exact .inl (.int hn)
  | float y => exact .inl (.float y)
  | str s =>
    rw [numericValue?_str] at h
    obtain ⟨negative, body, hsign, hname | ⟨digits, scale, hwrites, -⟩⟩ :=
      ofNumeral?_eq_some_iff.1 h
    · refine .inr (.name hsign ?_)
      by_contra hnot
      rw [named?_eq_none_iff.2 hnot] at hname
      cases hname
    · by_cases hvalue : overflow ≤ numeralValue digits scale
      · exact .inr (.numeral hsign hwrites hvalue)
      · exact .inl (.numeral hsign hwrites hvalue)
  | _ => cases h

theorem exists_finite_iff : (∃ x, numericValue? v = some (.finite x)) ↔ v.IsFigure := by
  constructor
  · rintro ⟨x, hx⟩
    apply (isFigure_or_isBeyond hx).resolve_right
    intro hbeyond
    obtain ⟨y, hy, hnot⟩ := hbeyond.exists_not_finite
    cases hx.symm.trans hy
    cases hnot
  · exact Json.IsFigure.exists_finite

theorem exists_not_finite_iff :
    (∃ x, numericValue? v = some x ∧ x.finite? = none) ↔ v.IsBeyond := by
  constructor
  · rintro ⟨x, hx, hnot⟩
    apply (isFigure_or_isBeyond hx).resolve_left
    intro hfigure
    obtain ⟨y, hy⟩ := hfigure.exists_finite
    cases hx.symm.trans hy
    cases hnot
  · exact Json.IsBeyond.exists_not_finite

/-! ## Charts and cards -/

/-- The row is there and has a value with the property under the key. -/
def HoldsAt (P : Json → Prop) (row : Option Row) (key : String) : Prop :=
  ∃ v, row.bind (Members.get? · key) = some v ∧ P v

variable {row : Option Row} {key : String}

theorem holdsAt_iff {P : Json → Prop} {Q : Option Binary64 → Prop} (hnone : ¬Q none)
    (h : ∀ v, Q (numericValue? v) ↔ P v) :
    HoldsAt P row key ↔ Q ((row.bind (Members.get? · key)).bind numericValue?) := by
  unfold HoldsAt
  cases row.bind (Members.get? · key) with
  | none => simp [hnone]
  | some v => simp [h]

theorem holdsAt_isFigure_iff : HoldsAt Json.IsFigure row key ↔
    ∃ x, (row.bind (Members.get? · key)).bind numericValue? = some (.finite x) :=
  holdsAt_iff (Q := fun o => ∃ x, o = some (.finite x)) (by simp) fun _ => exists_finite_iff

theorem holdsAt_isBeyond_iff : HoldsAt Json.IsBeyond row key ↔
    ∃ x, (row.bind (Members.get? · key)).bind numericValue? = some x ∧ x.finite? = none :=
  holdsAt_iff (Q := fun o => ∃ x, o = some x ∧ x.finite? = none) (by simp) fun _ =>
    exists_not_finite_iff

theorem Chart.points_eq {rows : List Row} {metrics : List Metric} {dimensions : List Dimension}
    {chart : Chart} (h : Chart.ofRows? rows metrics dimensions = some chart) :
    chart.points = rows.map (ChartPoint.ofRow chart.categoryKey chart.seriesKey) := by
  unfold Chart.ofRows? at h
  split at h <;> cases h
  rfl

theorem value_of_mem_cards {card : Card} (h : card ∈ Headline.cards row) :
    card.value = Headline.figure row card.key := by
  obtain ⟨⟨title, key, format⟩, -, rfl⟩ := List.mem_map.1 h
  rfl

theorem finite?_figure_eq_none_iff :
    (Headline.figure row key).finite? = none ↔ HoldsAt Json.IsBeyond row key := by
  rw [holdsAt_isBeyond_iff, Headline.figure]
  cases (row.bind (Members.get? · key)).bind numericValue? with
  | none => simp [finite?]
  | some x => simp

theorem figure_of_not_holdsAt (hfigure : ¬HoldsAt Json.IsFigure row key)
    (hbeyond : ¬HoldsAt Json.IsBeyond row key) :
    Headline.figure row key = .finite (.zero false) := by
  rw [holdsAt_isFigure_iff] at hfigure
  rw [holdsAt_isBeyond_iff] at hbeyond
  rw [Headline.figure]
  cases h : (row.bind (Members.get? · key)).bind numericValue? with
  | none => rfl
  | some x =>
    cases x with
    | finite x => exact absurd ⟨x, h⟩ hfigure
    | _ => exact absurd ⟨_, h, rfl⟩ hbeyond

/-- **Which figures are finite.** -/
theorem figures_finite_iff (rows : List Row) (metrics : List Metric) (dimensions : List Dimension)
    (row : Option Row) :
    (∀ chart, Chart.ofRows? rows metrics dimensions = some chart →
      List.Forall₂ (fun row point =>
        ((∃ x, point.value = some (.finite x)) ↔
          HoldsAt Json.IsFigure (some row) chart.seriesKey) ∧
        ((∃ x, point.value = some x ∧ x.finite? = none) ↔
          HoldsAt Json.IsBeyond (some row) chart.seriesKey)) rows chart.points) ∧
    ∀ card ∈ Headline.cards row,
      (card.value.finite? = none ↔ HoldsAt Json.IsBeyond row card.key) ∧
      (¬HoldsAt Json.IsFigure row card.key → ¬HoldsAt Json.IsBeyond row card.key →
        card.value = .finite (.zero false)) := by
  constructor
  · intro chart h
    rw [Chart.points_eq h, List.forall₂_map_right_iff, List.forall₂_same]
    intro row _
    exact ⟨(@holdsAt_isFigure_iff (some row) _).symm, (@holdsAt_isBeyond_iff (some row) _).symm⟩
  · intro card hcard
    rw [value_of_mem_cards hcard]
    exact ⟨finite?_figure_eq_none_iff, figure_of_not_holdsAt⟩

/-- Ten to the 309th is beyond the format. -/
def textRows : List Row := [[("revenue", .str " 1e309 ")], [("revenue", .str "12.50")]]

theorem figures_finite_iff_texts :
    (∃ chart, Chart.ofRows? textRows [(Metric.ofColumn "total_amount" .sum).withKey "revenue"]
        [.store] = some chart ∧
      ∃ beyond figure, chart.points = [beyond, figure] ∧
        (∃ x, beyond.value = some x ∧ x.finite? = none) ∧
        ∃ x, figure.value = some (.finite x)) ∧
    ∃ card ∈ Headline.cards (some [("ticket_medio", .str "-Infinity")]),
      card.value.finite? = none := by
  have hbeyond : HoldsAt Json.IsBeyond (some [("revenue", .str " 1e309 ")]) "revenue" := by
    refine ⟨_, rfl, @Json.IsBeyond.numeral _ _ _ 1 309 (.bare (by decide) (by decide)) ?_
      (overflow_le_numeralValue_iff.2 (by decide +kernel))⟩
    have htext : Text.trim " 1e309 ".toList = ['1'] ++ ['e', '3', '0', '9'] := by decide
    rw [htext]
    exact .whole (allDigits_iff.1 rfl)
      (.present (.inl rfl) (.bare (by decide) (by decide)) (allDigits_iff.1 rfl))
  have hfigure : HoldsAt Json.IsFigure (some [("revenue", .str "12.50")]) "revenue" :=
    ⟨_, rfl, .numeral (.bare (by decide) (by decide))
      (@WritesMagnitude.point ['1', '2'] ['5', '0'] [] 0 (allDigits_iff.1 rfl) .absent)
      (mt overflow_le_numeralValue_iff.1 (by decide +kernel))⟩
  have hname : HoldsAt Json.IsBeyond (some [("ticket_medio", .str "-Infinity")]) "ticket_medio" :=
    ⟨_, rfl, .name (.minus _) (by unfold IsName; decide)⟩
  obtain ⟨hchart, hcards⟩ := figures_finite_iff textRows
    [(Metric.ofColumn "total_amount" .sum).withKey "revenue"] [.store]
    (some [("ticket_medio", .str "-Infinity")])
  constructor
  · refine ⟨_, rfl, _, _, rfl, ?_⟩
    cases hchart _ rfl with
    | cons hfirst hrest =>
      cases hrest with
      | cons hsecond _ => exact ⟨hfirst.2.2 hbeyond, hsecond.1.2 hfigure⟩
  · have hcard : _ ∈ Headline.cards (some [("ticket_medio", .str "-Infinity")]) :=
      List.mem_cons_of_mem _ (List.mem_cons_of_mem _ List.mem_cons_self)
    exact ⟨_, hcard, (hcards _ hcard).1.2 hname⟩

/-- A card shows infinity, and the chart plots a point that is no number. -/
theorem figure_not_finite :
    (¬∀ (row : Option Row), ∀ card ∈ Headline.cards row, card.value.finite? ≠ none) ∧
    ¬∀ (rows : List Row) (metrics : List Metric) (dimensions : List Dimension) (chart : Chart),
      Chart.ofRows? rows metrics dimensions = some chart →
        ∀ point ∈ chart.points, ∀ x, point.value = some x → x.finite? ≠ none := by
  constructor
  · intro h
    exact h (some [("faturamento_total", .str "inf")]) _ List.mem_cons_self (by decide)
  · intro h
    exact h [[("revenue", .str "NaN")]] [(Metric.ofColumn "total_amount" .sum).withKey "revenue"]
      [.store] _ rfl _ List.mem_cons_self .nan (by decide) rfl

end SalesExplorer
