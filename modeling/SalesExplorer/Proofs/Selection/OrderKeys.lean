import Mathlib.Tactic.Common
import SalesExplorer.Proofs.Selection.Composition

/-!
# Keys to sort by

The keys that a selection can be sorted by come up three times: in the list that is offered
(`orderOptions`), in the test for a stale order (`hasStaleOrder`), and as the columns of the query.

**Theorem (`order_keys_agree`).** The three agree on every selection. The keys on offer are
different, an order is stale exactly if its key is not on offer, and this is what pruning answers;
dropping a stale order changes neither the query nor the reason why there is none; and the columns
of the query are the keys on offer, in the same order.

The first two skip identifiers that the catalog does not know, and composition refuses them. So
where there is a query nothing was skipped, and the keys are the identifiers themselves
(`orderKeys_of_query`).
-/

namespace SalesExplorer.Selection

variable {s : Selection} {q : Query}

/-! ## Keys on offer -/

theorem map_key_orderOptions (s : Selection) :
    s.orderOptions.map OrderOption.key = s.orderKeys.eraseDups := by
  rw [orderOptions, List.map_map, distinctBy_id]
  exact List.map_id _

theorem hasStaleOrder_iff (s : Selection) : s.hasStaleOrder = true ↔
    ∃ o, s.order = some o ∧ o.key ∉ s.orderOptions.map OrderOption.key := by
  rw [hasStaleOrder, Option.any_eq_true]
  simp only [map_key_orderOptions, List.mem_eraseDups, decide_eq_true_eq]

/-- Where every identifier is found, and under its own key, the keys are the identifiers. -/
theorem filterMap_key_of_lookup {α : Type} {lookup : String → Option α} {key : α → String}
    (hkey : ∀ id a, lookup id = some a → key a = id) {ids : List String} {found : List α}
    (h : ids.eraseDups.map lookup = found.map some) :
    ids.filterMap (fun id => (lookup id).map key) = ids := by
  have hfound : ∀ id ∈ ids, (lookup id).map key = some id := by
    intro id hid
    have hmem : lookup id ∈ found.map some :=
      h ▸ List.mem_map_of_mem (List.mem_eraseDups.2 hid)
    obtain ⟨a, -, ha⟩ := List.mem_map.1 hmem
    rw [← ha, Option.map_some, hkey id a ha.symm]
  rw [List.filterMap_congr hfound]
  exact List.filterMap_some

/-- The identifiers of a selection that composes are its keys. -/
theorem orderKeys_of_query (h : s.query = .ok q) : s.orderKeys = s.dimensions ++ s.metrics := by
  obtain ⟨hms, hds, -⟩ := query_eq_ok_iff.1 h
  have hdims := filterMap_key_of_lookup (fun _ _ => Catalog.key_of_dimension?)
    (resolveDimensions_eq_ok hds).2
  have hmetrics := filterMap_key_of_lookup (fun _ _ => Catalog.key_of_metric?)
    (resolveMetrics_eq_ok hms).2
  have hid : ∀ id, (Catalog.metricOption? id).map (·.id) = (Catalog.metric? id).map Metric.key := by
    intro id
    rw [Catalog.metric?, Option.map_map]
    rfl
  rw [orderKeys, hdims]
  simp only [hid, hmetrics]

/-- No identifier of a selection that composes is both a dimension and a metric. -/
theorem disjoint_of_query (h : s.query = .ok q) : ∀ id ∈ s.metrics, id ∉ s.dimensions := by
  intro id hm hd
  have hkeys : (s.dimensions.eraseDups ++ s.metrics.eraseDups).Nodup :=
    outputKeys_of_query h ▸ outputKeys_nodup_of_query h
  obtain ⟨-, -, hne⟩ := List.nodup_append.1 hkeys
  exact hne id (List.mem_eraseDups.2 hd) id (List.mem_eraseDups.2 hm) rfl

/-- **Columns.** The columns of a composed query are the keys on offer, in the same order. -/
theorem outputKeys_eq_orderOptions (h : s.query = .ok q) :
    q.outputKeys = s.orderOptions.map OrderOption.key := by
  have hnew : s.metrics.removeAll s.dimensions = s.metrics :=
    List.filter_eq_self.2 fun id hid => by simpa using disjoint_of_query h id hid
  rw [outputKeys_of_query h, map_key_orderOptions, orderKeys_of_query h, List.eraseDups_append,
    hnew]

/-! ## Composition under another order -/

theorem query_with_order (s : Selection) (order : Option Order) :
    { s with order }.query =
      s.query.map fun q => { q with order := order.filter (·.key ∈ q.outputKeys) } := by
  unfold query
  cases resolveMetrics s.metrics with
  | error fault => rfl
  | ok metrics =>
    cases resolveDimensions s.dimensions with
    | error fault => rfl
    | ok dimensions => cases resolveFilters s.filters <;> rfl

theorem order_apply_pruneOrder (s : Selection) :
    (s.apply .pruneOrder).order = s.order.filter (·.key ∈ s.orderOptions.map OrderOption.key) := by
  rw [apply, perform]
  split_ifs with hstale
  · obtain ⟨o, ho, hkey⟩ := (hasStaleOrder_iff s).1 hstale
    rw [ho, Option.filter_some, if_neg (by simpa using hkey)]
  · cases ho : s.order with
    | none => rfl
    | some o =>
      rw [Option.filter_some, if_pos]
      rw [decide_eq_true_eq]
      by_contra hkey
      exact hstale ((hasStaleOrder_iff s).2 ⟨o, ho, hkey⟩)

/-- The order of a composed query is what is left after a stale one was dropped. -/
theorem order_of_query (h : s.query = .ok q) : q.order = (s.apply .pruneOrder).order := by
  obtain ⟨-, -, -, -, -, horder⟩ := query_eq_ok_iff.1 h
  rw [horder, order_apply_pruneOrder, outputKeys_eq_orderOptions h]

theorem query_apply_pruneOrder (s : Selection) : (s.apply .pruneOrder).query = s.query := by
  have hpruned : s.apply .pruneOrder = { s with order := (s.apply .pruneOrder).order } := by
    rw [apply, perform]
    split_ifs <;> rfl
  rw [hpruned, query_with_order]
  cases h : s.query with
  | error fault => rfl
  | ok q =>
    -- What is left of the order is the order of the query, so dropping it again has no effect.
    have hkept : q.order.filter (·.key ∈ q.outputKeys) = q.order := by
      obtain ⟨-, -, -, -, -, horder⟩ := query_eq_ok_iff.1 h
      rw [horder, Option.filter_filter]
      simp only [Bool.and_self]
    rw [Except.map, ← order_of_query h, hkept]

/-! ## Agreement -/

/-- **The keys to sort by** are the same for the offer, for the test of staleness and for the
query. -/
theorem order_keys_agree (s : Selection) :
    let offered := s.orderOptions.map OrderOption.key
    let pruned := s.apply .pruneOrder
    offered.Nodup ∧
    (s.hasStaleOrder = true ↔ ∃ o, s.order = some o ∧ o.key ∉ offered) ∧
    s.perform .pruneOrder = (.pruned s.hasStaleOrder, pruned) ∧
    pruned = (if s.hasStaleOrder then { s with order := none } else s) ∧
    pruned.query = s.query ∧
    ∀ q, s.query = .ok q → q.outputKeys = offered ∧ q.order = pruned.order := by
  refine ⟨?_, hasStaleOrder_iff s, rfl, rfl, query_apply_pruneOrder s,
    fun q h => ⟨?_, order_of_query h⟩⟩
  · rw [map_key_orderOptions]
    exact nodup_eraseDups _
  · exact outputKeys_eq_orderOptions h

/-- Repeated identifiers, and an order by a metric that is not selected. -/
theorem order_keys_agree_stale :
    let s : Selection :=
      { metrics := ["count_sale_id", "sum_total_amount", "count_sale_id"]
        dimensions := ["store_name", "channel_name", "store_name"]
        order := some ⟨"avg_total_amount", .descending⟩ }
    let q : Query :=
      { metrics :=
          [⟨"sale_id", .count, "count_sale_id"⟩, ⟨"total_amount", .sum, "sum_total_amount"⟩]
        dimensions := [.store, .channel] }
    s.query = .ok q ∧ (s.perform .pruneOrder).1 = .pruned true ∧
      q.outputKeys = s.orderOptions.map OrderOption.key ∧
      q.order = (s.apply .pruneOrder).order := by
  intro s q
  have h : s.query = .ok q := by rfl
  have hstale : s.hasStaleOrder = true := by decide
  obtain ⟨-, -, hreply, -, -, hquery⟩ := order_keys_agree s
  exact ⟨h, by rw [hreply, hstale], hquery q h⟩

end SalesExplorer.Selection
