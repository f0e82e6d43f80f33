import Mathlib.Tactic.Common
import SalesExplorer.Proofs.Calendar.Rfc3339
import SalesExplorer.Proofs.Json.Text
import SalesExplorer.Proofs.Wire.Layout
import SalesExplorer.Wire.Query

/-!
# Queries read back

**Theorem (`query_round_trip`).** A query that is encoded and decoded again, as a value in memory or
as a text, is the same query with the default key for each metric that has none, and nothing else
is changed. A decoded query has a key for every metric, so encoding and decoding it changes nothing.

Each part of a query is read back by itself: names, values and instants (`instant_ofJson`, from
`Rfc3339.read_text`), then the records made of them, each field being read into the draft that the
fields before it leave. An absent part is left out of the object, and its field in the draft stays
blank.

The second half does not come from the first: a decoded query may have been written in many ways.
That all its metrics have keys is kept by every field that is read (`query_key_ne_empty`).
-/

namespace SalesExplorer

/-! ## Metrics without a key -/

/-- The metric with its default key in place of an empty one. -/
def Metric.withDefaultKey (m : Metric) : Metric :=
  if m.key = "" then m.withKey (defaultKey m.aggregation m.column) else m

/-- The query with the default key in place of every empty one. -/
def Query.withDefaultKeys (q : Query) : Query :=
  { q with metrics := q.metrics.map Metric.withDefaultKey }

theorem Metric.defaultKey_ne_empty (a : Aggregation) (column : String) :
    defaultKey a column ≠ "" := by
  have hname : a.name ++ "_" ≠ "" := by cases a <;> decide
  intro h
  exact hname (String.append_eq_empty_iff.1 h).1

theorem Query.withDefaultKeys_eq_self {q : Query} (h : ∀ m ∈ q.metrics, m.key ≠ "") :
    q.withDefaultKeys = q := by
  have hmetrics : q.metrics.map Metric.withDefaultKey = q.metrics.map id :=
    List.map_congr_left fun m hm => if_neg (h m hm)
  rw [withDefaultKeys, hmetrics, List.map_id]

namespace Wire

open Layout

variable (medium : Medium)

/-! ## Names -/

theorem aggregation_ofJson (a : Aggregation) :
    aggregation medium (Source.ofJson (.str a.name)) = .ok a := by
  cases a <;> rfl

theorem dimension_ofJson (d : Dimension) :
    dimension medium (Source.ofJson (.str d.key)) = .ok d := by
  cases d <;> rfl

theorem operator_ofJson (o : Filter.Operator) :
    operator medium (Source.ofJson (.str o.name)) = .ok o := by
  cases o <;> rfl

theorem direction_ofJson (d : Direction) :
    direction medium (Source.ofJson (.str d.name)) = .ok d := by
  cases d <;> rfl

/-! ## Values -/

theorem wholeItems?_texts (ts : List String) :
    Source.wholeItems? (Source.ofItems (ts.map Json.str)) = some (ts.map Json.str) := by
  induction ts with
  | nil => rfl
  | cons t ts ih =>
    rw [List.map_cons, Source.ofItems, Source.wholeItems?, ih]
    rfl

theorem mapM_map_eq_some {α β : Type} {f : β → Option α} {g : α → β}
    (h : ∀ a, f (g a) = some a) (l : List α) : (l.map g).mapM f = some l := by
  induction l with
  | nil => rfl
  | cons a l ih =>
    rw [List.map_cons, List.mapM_cons, h, ih]
    rfl

theorem filterValue_ofJson (v : Filter.Value) : filterValue (Source.ofJson v.toJson) = .ok v := by
  cases v with
  | single t => rfl
  | many ts =>
    have hwhole :
        whole (Source.ofJson (.arr (ts.map Json.str))) = .ok (.arr (ts.map Json.str)) := by
      rw [whole, Source.ofJson, Source.whole?, wholeItems?_texts]
      rfl
    rw [Filter.Value.toJson, filterValue, hwhole]
    dsimp only [bind, Except.bind]
    rw [mapM_map_eq_some]
    · rfl
    · exact fun _ => rfl

theorem instant_ofJson (t : Instant) : instant (Source.ofJson t.toJson) = .ok t := by
  rw [Instant.toJson, Source.ofJson, instant, String.toList_ofList, Rfc3339.read_text]
  rfl

theorem limit_ofJson (n : UInt32) : limit (Source.ofJson (.int n.toNat)) = .ok n := by
  have hrange : (0 : Int) ≤ n.toNat ∧ (n.toNat : Int) < UInt32.size :=
    ⟨Int.natCast_nonneg _, Int.ofNat_lt.2 n.toNat_lt_size⟩
  rw [limit, Source.ofJson, natural, if_pos hrange]
  show Except.ok (UInt32.ofNat n.toNat) = _
  rw [UInt32.ofNat_toNat]

/-! ## Records -/

theorem metric_ofJson (m : Metric) :
    metric medium (Source.ofJson m.toJson) = .ok m.withDefaultKey := by
  have hfields : (metricLayout medium).fields.Nodup := by simp [metricLayout]
  have hcolumn d : (metricLayout medium).readMember d ("field", .str m.column) =
      .ok { d with column := m.column } := rfl
  have haggregation d : (metricLayout medium).readMember d ("function", .str m.aggregation.name) =
      .ok { d with aggregation := m.aggregation } :=
    store_ok (fun a => ({ d with aggregation := some a } : MetricDraft))
      (aggregation_ofJson medium m.aggregation)
  have hkey d : (metricLayout medium).readMember d ("alias", .str m.key) =
      .ok { d with key := m.key } := rfl
  refine decode_ofJson_obj medium hfields (List.Sublist.refl _)
    (foldlM_cons_ok (hcolumn _) (foldlM_cons_ok (haggregation _) (foldlM_cons_ok (hkey _) rfl))) ?_
  rw [Metric.withDefaultKey]
  show Except.ok (⟨_, _, if m.key = "" then _ else m.key⟩ : Metric) = _
  split_ifs <;> rfl

theorem clause_ofJson (c : Filter.Clause) : clause medium (Source.ofJson c.toJson) = .ok c := by
  have hfields : (clauseLayout medium).fields.Nodup := by simp [clauseLayout]
  have hfield d : (clauseLayout medium).readMember d ("field", .str c.field.key) =
      .ok { d with field := c.field } :=
    store_ok (fun f => ({ d with field := some f } : ClauseDraft))
      (dimension_ofJson medium c.field)
  have hoperator d : (clauseLayout medium).readMember d ("operator", .str c.operator.name) =
      .ok { d with operator := c.operator } :=
    store_ok (fun o => ({ d with operator := some o } : ClauseDraft))
      (operator_ofJson medium c.operator)
  have hvalue d : (clauseLayout medium).readMember d ("value", c.value.toJson) =
      .ok { d with value := c.value } :=
    store_ok (fun v => ({ d with value := some v } : ClauseDraft)) (filterValue_ofJson c.value)
  exact decode_ofJson_obj medium hfields (List.Sublist.refl _)
    (foldlM_cons_ok (hfield _) (foldlM_cons_ok (hoperator _) (foldlM_cons_ok (hvalue _) rfl))) rfl

theorem period_ofJson (r : TimeRange) : period medium (Source.ofJson r.toJson) = .ok r := by
  have hfields : periodLayout.fields.Nodup := by simp [periodLayout]
  have hstart d : periodLayout.readMember d ("start_date", r.start.toJson) =
      .ok { d with start := r.start } :=
    store_ok (fun t => ({ d with start := some t } : PeriodDraft)) (instant_ofJson r.start)
  have hstop d : periodLayout.readMember d ("end_date", r.stop.toJson) =
      .ok { d with stop := r.stop } :=
    store_ok (fun t => ({ d with stop := some t } : PeriodDraft)) (instant_ofJson r.stop)
  exact decode_ofJson_obj medium hfields (List.Sublist.refl _)
    (foldlM_cons_ok (hstart _) (foldlM_cons_ok (hstop _) rfl)) rfl

theorem order_ofJson (o : Order) : order medium (Source.ofJson o.toJson) = .ok o := by
  have hfields : (orderLayout medium).fields.Nodup := by simp [orderLayout]
  have hkey d : (orderLayout medium).readMember d ("field", .str o.key) =
      .ok { d with key := o.key } := rfl
  have hdirection d : (orderLayout medium).readMember d ("direction", .str o.direction.name) =
      .ok { d with direction := o.direction } :=
    store_ok (fun a => ({ d with direction := some a } : OrderDraft))
      (direction_ofJson medium o.direction)
  exact decode_ofJson_obj medium hfields (List.Sublist.refl _)
    (foldlM_cons_ok (hkey _) (foldlM_cons_ok (hdirection _) rfl)) rfl

/-! ## Queries -/

section Members

variable (d : QueryDraft)

theorem readMember_metrics (l : List Metric) :
    (queryLayout medium).readMember d ("metrics", .arr (l.map Metric.toJson)) =
      .ok { d with metrics := l.map Metric.withDefaultKey } :=
  store_ok (fun ms => ({ d with metrics := some ms } : QueryDraft))
    (list_ofJson_arr (metric_ofJson medium) l)

theorem readMember_dimensions (l : List Dimension) :
    (queryLayout medium).readMember d ("dimensions", .arr (l.map fun d => .str d.key)) =
      .ok { d with dimensions := l } := by
  have hlist := list_ofJson_arr (dimension_ofJson medium) l
  rw [List.map_id'] at hlist
  exact store_ok (fun ds => ({ d with dimensions := some ds } : QueryDraft)) hlist

theorem readMember_filters (l : List Filter.Clause) :
    (queryLayout medium).readMember d ("filters", .arr (l.map Filter.Clause.toJson)) =
      .ok { d with filters := l } := by
  have hlist := list_ofJson_arr (clause_ofJson medium) l
  rw [List.map_id'] at hlist
  exact store_ok (fun cs => ({ d with filters := cs } : QueryDraft)) hlist

theorem readMember_period (r : TimeRange) :
    (queryLayout medium).readMember d ("time_range", r.toJson) = .ok { d with period := r } :=
  store_ok (fun r => ({ d with period := r } : QueryDraft))
    (optional_ok (by simp [TimeRange.toJson, Source.ofJson]) (period_ofJson medium r))

theorem readMember_order (o : Order) :
    (queryLayout medium).readMember d ("order_by", o.toJson) = .ok { d with order := o } :=
  store_ok (fun o => ({ d with order := o } : QueryDraft))
    (optional_ok (by simp [Order.toJson, Source.ofJson]) (order_ofJson medium o))

theorem readMember_limit (n : UInt32) :
    (queryLayout medium).readMember d ("limit", .int n.toNat) = .ok { d with limit := n } :=
  store_ok (fun n => ({ d with limit := n } : QueryDraft))
    (optional_ok (by simp [Source.ofJson]) (limit_ofJson n))

end Members

/-- **A query read back** has default keys in place of empty ones. -/
theorem query_ofJson (q : Query) :
    query medium (Source.ofJson q.toJson) = .ok q.withDefaultKeys := by
  have hfields : (queryLayout medium).fields.Nodup := by simp [queryLayout]
  obtain ⟨ms, hms⟩ : ∃ ms, q.metrics.map Metric.withDefaultKey = ms := ⟨_, rfl⟩
  have hhead := foldlM_cons_ok (hms ▸ readMember_metrics medium {} q.metrics)
    (foldlM_cons_ok (l := []) (readMember_dimensions medium _ q.dimensions) rfl)
  have hfilters : (if q.filters.isEmpty then [] else
      [("filters", Json.arr (q.filters.map Filter.Clause.toJson))]).foldlM
        (queryLayout medium).readMember ⟨ms, q.dimensions, [], none, none, none⟩ =
          .ok ⟨ms, q.dimensions, q.filters, none, none, none⟩ := by
    split_ifs with hempty
    · rw [List.isEmpty_iff.1 hempty]
      rfl
    · exact foldlM_cons_ok (readMember_filters medium _ q.filters) rfl
  have hperiod := foldlM_toList
    (fun r => (⟨ms, q.dimensions, q.filters, r, none, none⟩ : QueryDraft))
    (fun r => readMember_period medium _ r) q.period
  have horder := foldlM_toList
    (fun o => (⟨ms, q.dimensions, q.filters, q.period, o, none⟩ : QueryDraft))
    (fun o => readMember_order medium _ o) q.order
  have hlimit := foldlM_toList
    (fun n => (⟨ms, q.dimensions, q.filters, q.period, q.order, n⟩ : QueryDraft))
    (fun n => readMember_limit medium _ n) q.limit
  refine decode_ofJson_obj medium hfields ?_ (foldlM_append_ok (foldlM_append_ok
    (foldlM_append_ok (foldlM_append_ok hhead hfilters) hperiod) horder) hlimit) ?_
  · have hfilterKeys : (Members.keys (if q.filters.isEmpty then [] else
        [("filters", .arr (q.filters.map Filter.Clause.toJson))])).Sublist ["filters"] := by
      split_ifs
      · exact List.nil_sublist _
      · exact List.Sublist.refl _
    simp only [Members.keys, List.map_append]
    exact ((((List.Sublist.refl ["metrics", "dimensions"]).append hfilterKeys).append
      (keys_toList_sublist "time_range" TimeRange.toJson q.period)).append
      (keys_toList_sublist "order_by" Order.toJson q.order)).append
      (keys_toList_sublist "limit" (fun n : UInt32 => .int n.toNat) q.limit)
  · rw [Query.withDefaultKeys, hms]
    rfl

/-! ## Keys of decoded queries -/

variable {medium}

theorem metric_key_ne_empty {s : Source} {m : Metric} (h : metric medium s = .ok m) :
    m.key ≠ "" := by
  obtain ⟨d, absent, -, hm⟩ := decode_invariant (P := fun _ => True)
    (fun _ _ _ _ _ _ => trivial) trivial h
  obtain ⟨column, -, hm⟩ := bind_eq_ok_iff.1 hm
  obtain ⟨a, -, hm⟩ := bind_eq_ok_iff.1 hm
  cases hm
  show (if d.key.getD "" = "" then _ else d.key.getD "") ≠ ""
  split_ifs with hempty
  · exact Metric.defaultKey_ne_empty a column
  · exact hempty

/-- The metrics read so far have keys. -/
def QueryDraft.Keyed (d : QueryDraft) : Prop :=
  ∀ ms, d.metrics = some ms → ∀ m ∈ ms, m.key ≠ ""

theorem QueryDraft.Keyed.read {d d' : QueryDraft} {i : Nat} {s : Source} (hd : d.Keyed)
    (h : (queryLayout medium).read d i s = .ok d') : d'.Keyed := by
  match i with
  | 0 =>
    obtain ⟨ms, hms, h⟩ := bind_eq_ok_iff.1 h
    cases h
    rintro _ ⟨⟩
    exact list_invariant (fun _ _ => metric_key_ne_empty) hms
  | 1 | 2 | 3 | 4 | n + 5 =>
    obtain ⟨x, -, h⟩ := bind_eq_ok_iff.1 h
    cases h
    exact hd

theorem query_key_ne_empty {s : Source} {q : Query} (h : query medium s = .ok q) :
    ∀ m ∈ q.metrics, m.key ≠ "" := by
  obtain ⟨d, absent, hd, hq⟩ := decode_invariant (P := QueryDraft.Keyed)
    (fun _ _ _ _ hd h => hd.read h) (fun _ h => by cases h) h
  obtain ⟨ms, hms, hq⟩ := bind_eq_ok_iff.1 hq
  obtain ⟨ds, -, hq⟩ := bind_eq_ok_iff.1 hq
  cases hq
  exact hd ms (required_eq_ok_iff.1 hms)

/-! ## The text of a query -/

open Json.Reader (Legible)

theorem legible_metric (m : Metric) : Legible 2 m.toJson := by
  refine .obj (by decide) ?_
  simp only [List.forall_mem_cons]
  exact ⟨.str, .str, .str, List.forall_mem_nil _⟩

theorem legible_value (v : Filter.Value) : Legible 3 v.toJson := by
  cases v with
  | single t => exact .str
  | many ts => exact .arr (by decide) (List.forall_mem_map.2 fun _ _ => .str)

theorem legible_clause (c : Filter.Clause) : Legible 2 c.toJson := by
  refine .obj (by decide) ?_
  simp only [List.forall_mem_cons]
  exact ⟨.str, .str, legible_value c.value, List.forall_mem_nil _⟩

theorem legible_period (r : TimeRange) : Legible 1 r.toJson := by
  refine .obj (by decide) ?_
  simp only [List.forall_mem_cons]
  exact ⟨.str, .str, List.forall_mem_nil _⟩

theorem legible_order (o : Order) : Legible 1 o.toJson := by
  refine .obj (by decide) ?_
  simp only [List.forall_mem_cons]
  exact ⟨.str, .str, List.forall_mem_nil _⟩

theorem legible_limit (n : UInt32) : Legible 1 (.int n.toNat) := by
  have hn := n.toNat_lt_size
  have hsize : UInt32.size ≤ UInt64.size := by decide
  exact .int (by omega) (by omega)

theorem legible_toList {β : Type} {key : String} {toJson : β → Json}
    (h : ∀ b, Legible 1 (toJson b)) (o : Option β) :
    ∀ m ∈ (o.map fun b => (key, toJson b)).toList, Legible 1 m.2 := by
  cases o with
  | none => exact List.forall_mem_nil _
  | some b => exact List.forall_mem_singleton.2 (h b)

theorem legible_query (q : Query) : Legible 0 q.toJson := by
  refine .obj (by decide) ?_
  simp only [List.forall_mem_append, List.forall_mem_cons]
  refine ⟨⟨⟨⟨⟨?_, ?_, List.forall_mem_nil _⟩, ?_⟩, ?_⟩, ?_⟩, ?_⟩
  · exact .arr (by decide) (List.forall_mem_map.2 fun m _ => legible_metric m)
  · exact .arr (by decide) (List.forall_mem_map.2 fun _ _ => .str)
  · split_ifs
    · exact List.forall_mem_nil _
    · exact List.forall_mem_singleton.2
        (.arr (by decide) (List.forall_mem_map.2 fun c _ => legible_clause c))
  · exact legible_toList legible_period q.period
  · exact legible_toList legible_order q.order
  · exact legible_toList legible_limit q.limit

theorem ofText_query (q : Query) : ofText query q.toJson.text = .ok q.withDefaultKeys := by
  rw [ofText, Source.ofText_text (legible_query q)]
  show (query .text _ >>= _) = _
  rw [query_ofJson]
  rfl

/-- **Queries read back.** A query that is encoded and decoded again, as a value or as a text, is
the same but for default keys in place of empty ones. A decoded query has no empty keys, whatever
it was decoded from, so it is the same altogether. -/
theorem query_round_trip :
    (∀ q : Query, ofJson query q.toJson = .ok q.withDefaultKeys ∧
      ofText query q.toJson.text = .ok q.withDefaultKeys) ∧
    ∀ (medium : Medium) (s : Source) (q : Query), query medium s = .ok q →
      (∀ m ∈ q.metrics, m.key ≠ "") ∧
        ofJson query q.toJson = .ok q ∧ ofText query q.toJson.text = .ok q := by
  refine ⟨fun q => ⟨query_ofJson .memory q, ofText_query q⟩, fun medium s q h => ?_⟩
  have hkeys := query_key_ne_empty h
  have hsame := Query.withDefaultKeys_eq_self hkeys
  exact ⟨hkeys, (query_ofJson .memory q).trans (congrArg _ hsame),
    (ofText_query q).trans (congrArg _ hsame)⟩

/-- A metric without a key, an item of blanks, a leap second before the year 0 and half a
millisecond in a year of five digits. -/
def oddQuery : Query where
  metrics := [⟨"total_amount", .sum, ""⟩]
  dimensions := [.store]
  filters := [⟨.channel, .within, .many ["iFood", " "]⟩]
  period := some
    ⟨⟨-63549273601, 1000000001, by decide⟩, ⟨327434832000, 500000, by decide⟩⟩
  order := some ⟨"store_name", .descending⟩
  limit := some 10

theorem query_round_trip_odd :
    oddQuery.period.map (fun r => (String.ofList r.start.text, String.ofList r.stop.text)) =
        some ("-0044-03-15T23:59:60.000000001Z", "+12345-12-31T00:00:00.000500Z") ∧
      oddQuery.withDefaultKeys.metrics = [⟨"total_amount", .sum, "sum_total_amount"⟩] ∧
      query .memory (Source.ofJson oddQuery.toJson) = .ok oddQuery.withDefaultKeys ∧
      ofText query oddQuery.withDefaultKeys.toJson.text = .ok oddQuery.withDefaultKeys := by
  have hquery : query .memory (Source.ofJson oddQuery.toJson) = .ok oddQuery.withDefaultKeys :=
    (query_round_trip.1 oddQuery).1
  exact ⟨by decide +kernel, by decide +kernel, hquery,
    (query_round_trip.2 .memory _ _ hquery).2.2⟩

end Wire

end SalesExplorer
