import Mathlib.Tactic.Common
import SalesExplorer.Proofs.Filter.Normalization

/-!
# Why a selection has no query

**Theorem (`no_query_iff_refused`).** A selection has no query exactly if one of its identifiers is
unknown, or a usable clause has an item outside the domain of its dimension. The reason that is
given is the first one in this order (`Refused`): the first unknown metric, the first unknown
dimension, the first item outside its domain in the first clause that has one. Clauses without a
usable value have no part in it, nor in the query; and period, order and limit have no part in it.

Each part of a query is read entry by entry and refused for its first bad entry
(`mapM_eq_error_iff`). Clauses are checked in their wire form, after the empty ones were left out,
so what is found there is carried back to the clauses as they were entered: the wire form has the
same items to check (`checkedItems_of_normalized?`).
-/

namespace SalesExplorer

namespace Filter

variable {d : Dimension} {t : String} {v : Violation} {c w : Clause} {fault : Fault}

/-! ## Clauses outside their domain -/

/-- The clause is usable, and one of its items lies outside the domain. -/
def Clause.Offends (c : Clause) : Prop :=
  c.Usable ∧ ∃ t ∈ c.considered, ¬InDomain c.field t

theorem violation?_eq_some_iff : Clause.violation? d t = some v ↔
    ¬InDomain d t ∧ (d = .hourOfDay ∧ v = .hour t ∨ d = .dayOfWeek ∧ v = .weekday t) := by
  cases d with
  | hourOfDay =>
    rw [← isHour_iff, Clause.violation?]
    split_ifs with h <;> simp [h, eq_comm (a := v)]
  | dayOfWeek =>
    rw [← isWeekday_iff, Clause.violation?]
    split_ifs with h <;> simp [h, eq_comm (a := v)]
  | _ => simp [Clause.violation?]

/-- A check names the first item outside the domain. -/
theorem check_eq_error_iff : c.check = .error fault ↔
    ∃ t v, IsFirst (fun t => ¬InDomain c.field t) c.checkedItems t ∧
      (c.field = .hourOfDay ∧ v = .hour t ∨ c.field = .dayOfWeek ∧ v = .weekday t) ∧
      fault = .validation v := by
  have hfound : c.check = .error fault ↔
      ∃ v, c.checkedItems.findSome? (Clause.violation? c.field) = some v ∧
        fault = .validation v := by
    unfold Clause.check
    cases c.checkedItems.findSome? (Clause.violation? c.field) <;> simp [eq_comm]
  simp only [hfound, findSome?_eq_some_iff_isFirst, ne_eq, violation?_eq_none_iff,
    violation?_eq_some_iff]
  constructor
  · rintro ⟨v, ⟨t, hfirst, -, hv⟩, hfault⟩
    exact ⟨t, v, hfirst, hv, hfault⟩
  · rintro ⟨t, v, hfirst, hv, hfault⟩
    exact ⟨v, ⟨t, hfirst, hfirst.prop, hv⟩, hfault⟩

theorem exists_check_eq_error_iff :
    (∃ fault, c.check = .error fault) ↔ ∃ t ∈ c.checkedItems, ¬InDomain c.field t := by
  constructor
  · rintro ⟨fault, h⟩
    obtain ⟨t, -, hfirst, -⟩ := check_eq_error_iff.1 h
    exact ⟨t, hfirst.mem, hfirst.prop⟩
  · intro h
    cases hcheck : c.check with
    | error fault => exact ⟨fault, rfl⟩
    | ok =>
      obtain ⟨t, ht, hout⟩ := h
      exact absurd (check_eq_ok_iff.1 hcheck t ht) hout

/-! ## Wire forms -/

/-- A clause is refused in its wire form exactly if it offends. -/
theorem exists_normalized?_refused_iff :
    (∃ w, c.normalized? = some w ∧ ∃ fault, w.check = .error fault) ↔ c.Offends := by
  simp only [exists_check_eq_error_iff, Clause.Offends, ← isEmpty_eq_false_iff,
    ← checkedItems_eq_considered]
  constructor
  · rintro ⟨w, hw, hout⟩
    obtain ⟨hfield, hitems⟩ := checkedItems_of_normalized? hw
    rw [hfield, hitems] at hout
    exact ⟨(Clause.normalized?_eq_some_iff.1 hw).1, hout⟩
  · rintro ⟨hne, hout⟩
    have hw := Clause.normalized?_eq_some_iff.2 ⟨hne, rfl⟩
    obtain ⟨hfield, hitems⟩ := checkedItems_of_normalized? hw
    exact ⟨_, hw, by rw [hfield, hitems]; exact hout⟩

theorem filterMap_normalized?_filter (clauses : List Clause) :
    (clauses.filter (·.Usable)).filterMap (·.normalized?) =
      clauses.filterMap (·.normalized?) := by
  rw [List.filterMap_filter]
  refine List.filterMap_congr fun c _ => ?_
  by_cases hc : c.Usable
  · simp [hc]
  · have hempty : c.isEmpty = true := by simpa using mt isEmpty_eq_false_iff.1 hc
    simp [hc, normalized?_eq_none_iff.2 hempty]

end Filter

namespace Selection

open SalesExplorer.Filter

variable {s : Selection} {fault : Fault}

/-! ## The parts of a query -/

section Resolve

variable {α β : Type} [DecidableEq β] {lookup : String → Option α}
  {unknown : String → UnknownOption} {key : α → β} {ids : List String}

theorem resolve_eq_error_iff : resolve lookup unknown key ids = .error fault ↔
    ∃ id, IsFirst (lookup · = none) ids id ∧ fault = .unknownOption (unknown id) := by
  rw [resolve, bind_pure_eq_error_iff]
  refine mapM_eq_error_iff_of fun id fault => ?_
  cases lookup id <;> simp [eq_comm]

theorem exists_resolve_iff :
    (∃ as, resolve lookup unknown key ids = .ok as) ↔ ∀ id ∈ ids, lookup id ≠ none := by
  unfold resolve
  rw [exists_bind_pure_eq_ok_iff, exists_mapM_eq_ok_iff]
  refine forall₂_congr fun id _ => ?_
  cases lookup id <;> simp

end Resolve

theorem exists_resolveMetrics_iff {ids : List String} :
    (∃ ms, resolveMetrics ids = .ok ms) ↔ ∀ id ∈ ids, Catalog.metric? id ≠ none :=
  exists_resolve_iff

theorem exists_resolveDimensions_iff {ids : List String} :
    (∃ ds, resolveDimensions ids = .ok ds) ↔ ∀ id ∈ ids, Catalog.dimension? id ≠ none :=
  exists_resolve_iff

theorem resolveFilters_eq_error_iff {clauses : List Clause} :
    resolveFilters clauses = .error fault ↔ ∃ c t v, IsFirst Clause.Offends clauses c ∧
      IsFirst (fun t => ¬InDomain c.field t) c.considered t ∧
      (c.field = .hourOfDay ∧ v = .hour t ∨ c.field = .dayOfWeek ∧ v = .weekday t) ∧
      fault = .validation v := by
  unfold resolveFilters
  simp only [mapM_eq_error_iff, bind_pure_eq_error_iff, isFirst_filterMap_iff,
    exists_normalized?_refused_iff, ← checkedItems_eq_considered]
  constructor
  · rintro ⟨w, ⟨c, hfirst, hw⟩, hfault⟩
    obtain ⟨t, v, ht, hv, rfl⟩ := check_eq_error_iff.1 hfault
    obtain ⟨hfield, hitems⟩ := checkedItems_of_normalized? hw
    rw [hfield, hitems] at ht
    rw [hfield] at hv
    exact ⟨c, t, v, hfirst, ht, hv, rfl⟩
  · rintro ⟨c, t, v, hfirst, ht, hv, rfl⟩
    have hw := Clause.normalized?_eq_some_iff.2 ⟨isEmpty_eq_false_iff.2 hfirst.prop.1, rfl⟩
    obtain ⟨hfield, hitems⟩ := checkedItems_of_normalized? hw
    refine ⟨_, ⟨c, hfirst, hw⟩, check_eq_error_iff.2 ⟨t, v, ?_, ?_, rfl⟩⟩
    · rw [hfield, hitems]
      exact ht
    · rw [hfield]
      exact hv

theorem exists_resolveFilters_iff {clauses : List Clause} :
    (∃ fs, resolveFilters clauses = .ok fs) ↔ ∀ c ∈ clauses, ¬c.Offends := by
  simp only [resolveFilters_eq_ok_iff, exists_eq_left, List.mem_filterMap]
  simp only [← exists_normalized?_refused_iff]
  constructor
  · rintro h c hc ⟨w, hw, fault, hfault⟩
    rw [h w ⟨c, hc, hw⟩] at hfault
    cases hfault
  · rintro h w ⟨c, hc, hw⟩
    cases hcheck : w.check with
    | ok => rfl
    | error fault => exact absurd ⟨w, hw, fault, hcheck⟩ (h c hc)

/-! ## The reason -/

/-- Why a selection has no query. A dimension is to blame where all metrics are known, and an item
of a clause where all identifiers are. -/
inductive Refused (s : Selection) : Fault → Prop
  | metric {id : String} : IsFirst (Catalog.metric? · = none) s.metrics id →
      Refused s (.unknownOption (.metric id))
  | dimension {id : String} : (∀ id ∈ s.metrics, Catalog.metric? id ≠ none) →
      IsFirst (Catalog.dimension? · = none) s.dimensions id →
      Refused s (.unknownOption (.dimension id))
  | item {c : Clause} {t : String} {v : Violation} :
      (∀ id ∈ s.metrics, Catalog.metric? id ≠ none) →
      (∀ id ∈ s.dimensions, Catalog.dimension? id ≠ none) →
      IsFirst Clause.Offends s.filters c →
      IsFirst (fun t => ¬InDomain c.field t) c.considered t →
      (c.field = .hourOfDay ∧ v = .hour t ∨ c.field = .dayOfWeek ∧ v = .weekday t) →
      Refused s (.validation v)

/-- **The reason** is the first one in the order of the parts. -/
theorem query_eq_error_iff : s.query = .error fault ↔ s.Refused fault := by
  unfold query
  simp only [bind_eq_error_iff]
  constructor
  · rintro (h | ⟨ms, hms, h | ⟨ds, hds, h | ⟨fs, -, h⟩⟩⟩)
    · obtain ⟨id, hfirst, rfl⟩ := resolve_eq_error_iff.1 h
      exact .metric hfirst
    · obtain ⟨id, hfirst, rfl⟩ := resolve_eq_error_iff.1 h
      exact .dimension (exists_resolveMetrics_iff.1 ⟨ms, hms⟩) hfirst
    · obtain ⟨c, t, v, hc, ht, hv, rfl⟩ := resolveFilters_eq_error_iff.1 h
      exact .item (exists_resolveMetrics_iff.1 ⟨ms, hms⟩)
        (exists_resolveDimensions_iff.1 ⟨ds, hds⟩) hc ht hv
    · simp [pure, Except.pure] at h
  · rintro (hfirst | ⟨hmetrics, hfirst⟩ | ⟨hmetrics, hdims, hc, ht, hv⟩)
    · exact .inl (resolve_eq_error_iff.2 ⟨_, hfirst, rfl⟩)
    · obtain ⟨ms, hms⟩ := exists_resolveMetrics_iff.2 hmetrics
      exact .inr ⟨ms, hms, .inl (resolve_eq_error_iff.2 ⟨_, hfirst, rfl⟩)⟩
    · obtain ⟨ms, hms⟩ := exists_resolveMetrics_iff.2 hmetrics
      obtain ⟨ds, hds⟩ := exists_resolveDimensions_iff.2 hdims
      have h := resolveFilters_eq_error_iff.2 ⟨_, _, _, hc, ht, hv, rfl⟩
      exact .inr ⟨ms, hms, .inr ⟨ds, hds, .inl h⟩⟩

/-- **There is a query** exactly if all identifiers are known and no clause offends. -/
theorem exists_query_iff : (∃ q, s.query = .ok q) ↔
    (∀ id ∈ s.metrics, Catalog.metric? id ≠ none) ∧
    (∀ id ∈ s.dimensions, Catalog.dimension? id ≠ none) ∧ ∀ c ∈ s.filters, ¬c.Offends := by
  rw [← exists_resolveMetrics_iff, ← exists_resolveDimensions_iff, ← exists_resolveFilters_iff]
  constructor
  · rintro ⟨q, hq⟩
    obtain ⟨hms, hds, hfs, -⟩ := query_eq_ok_iff.1 hq
    exact ⟨⟨_, hms⟩, ⟨_, hds⟩, ⟨_, hfs⟩⟩
  · rintro ⟨⟨ms, hms⟩, ⟨ds, hds⟩, ⟨fs, hfs⟩⟩
    unfold query
    rw [hms, hds, hfs]
    exact ⟨_, rfl⟩

/-! ## What has no part in it -/

/-- Only the usable clauses matter to the query. -/
theorem query_with_filters {filters : List Clause}
    (h : filters.filter (·.Usable) = s.filters.filter (·.Usable)) :
    { s with filters }.query = s.query := by
  have hfilters : resolveFilters filters = resolveFilters s.filters := by
    unfold resolveFilters
    rw [← filterMap_normalized?_filter filters, h, filterMap_normalized?_filter]
  unfold query
  rw [hfilters]

/-- Only metrics, dimensions and clauses are to blame. -/
theorem Refused.of_parts {s' : Selection} (hmetrics : s'.metrics = s.metrics)
    (hdims : s'.dimensions = s.dimensions) (hfilters : s'.filters = s.filters)
    (h : s.Refused fault) : s'.Refused fault := by
  cases h with
  | metric hfirst => exact .metric (hmetrics ▸ hfirst)
  | dimension hknown hfirst => exact .dimension (hmetrics ▸ hknown) (hdims ▸ hfirst)
  | item hknown hknown' hc ht hv =>
    exact .item (hmetrics ▸ hknown) (hdims ▸ hknown') (hfilters ▸ hc) ht hv

theorem refused_with_iff {period : Option TimeRange} {order : Option Order}
    {limit : Option UInt32} : { s with period, order, limit }.Refused fault ↔ s.Refused fault :=
  ⟨.of_parts rfl rfl rfl, .of_parts rfl rfl rfl⟩

/-- **When a selection has no query, and why.** -/
theorem no_query_iff_refused (s : Selection) :
    (∀ fault, s.query = .error fault ↔ s.Refused fault) ∧
    ((∃ fault, s.query = .error fault) ↔
      (∃ id ∈ s.metrics, Catalog.metric? id = none) ∨
      (∃ id ∈ s.dimensions, Catalog.dimension? id = none) ∨
      ∃ c ∈ s.filters, c.Usable ∧ ∃ t ∈ c.considered, ¬InDomain c.field t) ∧
    (∀ filters : List Clause, filters.filter (·.Usable) = s.filters.filter (·.Usable) →
      { s with filters }.query = s.query) ∧
    ∀ period order limit fault,
      { s with period, order, limit }.query = .error fault ↔ s.query = .error fault := by
  refine ⟨fun fault => query_eq_error_iff, ?_, fun filters => query_with_filters,
    fun period order limit fault => ?_⟩
  · rw [← not_iff_not, ← exists_ok_iff, exists_query_iff]
    simp only [not_or, not_exists, not_and, Clause.Offends, ne_eq]
  · rw [query_eq_error_iff, query_eq_error_iff, refused_with_iff]

/-- A clause of blanks alone would be no hour, but the weekday after it is to blame. -/
theorem no_query_iff_refused_weekday :
    let blank : Clause := ⟨.hourOfDay, .equals, .single "  "⟩
    let days : Clause := ⟨.dayOfWeek, .within, .single "1, 8,,9"⟩
    let s : Selection :=
      { metrics := ["count_sale_id"], dimensions := ["store_name"], filters := [blank, days] }
    s.Refused (.validation (.weekday "8")) ∧
      (∃ c ∈ s.filters, c.Usable ∧ ∃ t ∈ c.considered, ¬InDomain c.field t) ∧
      { s with filters := [days] }.query = s.query ∧
      { s with limit := some 0 }.query = .error (.validation (.weekday "8")) := by
  intro blank days s
  have hquery : s.query = .error (.validation (.weekday "8")) := by rfl
  obtain ⟨hreason, hrefused, hblank, hother⟩ := no_query_iff_refused s
  refine ⟨(hreason _).1 hquery, ?_, hblank [days] (by decide), (hother none none _ _).2 hquery⟩
  rcases hrefused.1 ⟨_, hquery⟩ with ⟨id, hid, hnone⟩ | ⟨id, hid, hnone⟩ | hitem
  · rw [List.mem_singleton.1 hid] at hnone
    cases hnone
  · rw [List.mem_singleton.1 hid] at hnone
    cases hnone
  · exact hitem

end Selection

end SalesExplorer
