import Mathlib.Data.List.Nodup
import Mathlib.Tactic.Common
import SalesExplorer.Proofs.Query.Columns
import SalesExplorer.Proofs.Reading
import SalesExplorer.Selection

/-!
# Composition of a query

**Theorem (`composed_of_query`).** A composed query holds what was selected, each part in its own
way (`Composed`): the catalog's metrics and dimensions under the different identifiers in the order
in which they were first picked, the usable clauses in their wire form, the period, a limit that is
not zero, and an order by one of the columns. Its columns have different keys, and all that
validation can find against it is that a metric or a dimension is missing.

The keys are different for two reasons. Within the metrics and within the dimensions a key is the
identifier that was picked, so picking out first occurrences of keys is the same as picking out
first occurrences of identifiers (`map_distinctBy`). Between the two, no identifier of the catalog is
both a metric and a dimension (`metric?_dimension?_disjoint`).
-/

namespace SalesExplorer

/-! ## First occurrences -/

namespace Selection

variable {α β γ : Type} [DecidableEq β] [DecidableEq γ] {key : α → β} {seen : List β} {l : List α}

theorem distinctBy_sublist (key : α → β) (seen : List β) (l : List α) :
    (distinctBy key seen l).Sublist l := by
  induction l generalizing seen with
  | nil => exact List.nil_sublist _
  | cons x rest ih =>
    rw [distinctBy]
    split_ifs
    · exact (ih seen).cons x
    · exact (ih _).cons_cons x

theorem key_notMem_of_mem_distinctBy {x : α} (h : x ∈ distinctBy key seen l) : key x ∉ seen := by
  induction l generalizing seen with
  | nil => cases h
  | cons y rest ih =>
    rw [distinctBy] at h
    split_ifs at h with hy
    · exact ih h
    · rcases List.mem_cons.1 h with rfl | h
      · exact hy
      · exact fun hx => ih h (List.mem_cons_of_mem _ hx)

theorem nodup_map_distinctBy (key : α → β) (seen : List β) (l : List α) :
    ((distinctBy key seen l).map key).Nodup := by
  induction l generalizing seen with
  | nil => exact List.nodup_nil
  | cons x rest ih =>
    rw [distinctBy]
    split_ifs
    · exact ih seen
    · refine List.nodup_cons.2 ⟨fun h => ?_, ih _⟩
      obtain ⟨y, hy, hyx⟩ := List.mem_map.1 h
      exact key_notMem_of_mem_distinctBy hy (hyx ▸ List.mem_cons_self)

/-- Entries with one key have one name, so their first places are those of their names. -/
theorem map_distinctBy {name : α → γ} {seen' : List γ}
    (hl : ∀ x ∈ l, ∀ y ∈ l, key x = key y ↔ name x = name y)
    (hseen : ∀ x ∈ l, key x ∈ seen ↔ name x ∈ seen') :
    (distinctBy key seen l).map name = ((l.map name).filter (· ∉ seen')).eraseDups := by
  induction l generalizing seen seen' with
  | nil => rfl
  | cons x rest ih =>
    obtain ⟨hx, hseen⟩ := List.forall_mem_cons.1 hseen
    have hrest : ∀ y ∈ rest, ∀ z ∈ rest, key y = key z ↔ name y = name z := fun y hy z hz =>
      hl y (List.mem_cons_of_mem x hy) z (List.mem_cons_of_mem x hz)
    rw [distinctBy]
    by_cases hmem : key x ∈ seen
    · simp [hmem, hx.1 hmem, ih hrest hseen]
    · have hseen' : ∀ y ∈ rest, key y ∈ key x :: seen ↔ name y ∈ name x :: seen' := by
        intro y hy
        rw [List.mem_cons, List.mem_cons, hseen y hy,
          hl y (List.mem_cons_of_mem x hy) x List.mem_cons_self]
      rw [if_neg hmem, List.map_cons, List.map_cons, ih hrest hseen',
        List.filter_cons_of_pos (by simpa using mt hx.2 hmem), List.eraseDups_cons,
        List.filter_filter]
      congr 3
      funext n
      by_cases hn : n = name x <;> simp [hn]

theorem map_distinctBy_nil {name : α → γ}
    (hl : ∀ x ∈ l, ∀ y ∈ l, key x = key y ↔ name x = name y) :
    (distinctBy key [] l).map name = (l.map name).eraseDups := by
  have hnil : ∀ x ∈ l, key x ∈ [] ↔ name x ∈ [] := by simp
  rw [map_distinctBy hl hnil]
  simp

theorem distinctBy_id (l : List β) : distinctBy id [] l = l.eraseDups := by
  have h : (distinctBy id [] l).map id = (l.map id).eraseDups :=
    map_distinctBy_nil fun _ _ _ _ => Iff.rfl
  simpa using h

theorem nodup_eraseDups (l : List β) : l.eraseDups.Nodup := by
  simpa [distinctBy_id] using nodup_map_distinctBy id [] l

theorem eraseDups_eq_nil {l : List β} : l.eraseDups = [] ↔ l = [] := by
  cases l with
  | nil => simp
  | cons x rest => simp [List.eraseDups_cons]

end Selection

/-! ## Look-up in the catalog -/

namespace Catalog

theorem key_of_metric? {id : String} {m : Metric} (h : metric? id = some m) : m.key = id := by
  obtain ⟨o, ho, rfl⟩ := Option.map_eq_some_iff.1 h
  show o.id = id
  simpa using List.find?_some ho

theorem key_of_dimension? {id : String} {d : Dimension} (h : dimension? id = some d) :
    d.key = id := by
  obtain ⟨o, ho, rfl⟩ := Option.map_eq_some_iff.1 h
  have hkeys : ∀ o ∈ dimensions, o.field.key = o.id := by decide
  rw [hkeys o (List.mem_of_find?_eq_some ho)]
  simpa using List.find?_some ho

theorem metric?_dimension?_disjoint {id : String} {m : Metric} {d : Dimension}
    (hm : metric? id = some m) : dimension? id ≠ some d := by
  intro hd
  obtain ⟨o, ho, -⟩ := Option.map_eq_some_iff.1 hm
  obtain ⟨o', ho', -⟩ := Option.map_eq_some_iff.1 hd
  have hne : ∀ o ∈ metrics, ∀ o' ∈ dimensions, o.id ≠ o'.id := by decide
  refine hne o (List.mem_of_find?_eq_some ho) o' (List.mem_of_find?_eq_some ho') ?_
  have hid : o.id = id := by simpa using List.find?_some ho
  have hid' : o'.id = id := by simpa using List.find?_some ho'
  rw [hid, hid']

end Catalog

/-- The clauses with a usable value are those that have a wire form. -/
theorem Filter.map_normalized?_filter (clauses : List Filter.Clause) :
    (clauses.filter (!·.isEmpty)).map Clause.normalized? =
      (clauses.filterMap (·.normalized?)).map some := by
  induction clauses with
  | nil => rfl
  | cons c rest ih =>
    cases hc : c.isEmpty with
    | true => simp [hc, Clause.normalized?, ih]
    | false => simp [hc, Clause.normalized?, ih]

namespace Selection

variable {s : Selection} {q : Query}

theorem map_key_of_lookup {α : Type} {lookup : String → Option α} {key : α → String}
    (hkey : ∀ id a, lookup id = some a → key a = id) {ids : List String} {found : List α}
    (h : ids.map lookup = found.map some) : found.map key = ids := by
  induction ids generalizing found with
  | nil =>
    cases found with
    | nil => rfl
    | cons a found => exact nomatch h
  | cons id ids ih =>
    cases found with
    | nil => exact nomatch h
    | cons a found =>
      obtain ⟨ha, hrest⟩ := List.cons.inj h
      rw [List.map_cons, hkey id a ha, ih hrest]

/-- **Look-up.** Where entries are looked up under their names, and entries with one key have one
name, the entries that are found are those under the different identifiers. -/
theorem resolve_eq_ok {α β : Type} [DecidableEq β] {lookup : String → Option α}
    {unknown : String → UnknownOption} {key : α → β} {name : α → String}
    (hname : ∀ id a, lookup id = some a → name a = id)
    (hkey : ∀ a b, key a = key b → name a = name b) {ids : List String} {as : List α}
    (h : resolve lookup unknown key ids = .ok as) :
    as.map name = ids.eraseDups ∧ ids.eraseDups.map lookup = as.map some := by
  obtain ⟨found, hfound, has⟩ := bind_eq_ok_iff.1 h
  cases has
  have hlookup : ids.map lookup = found.map some := by
    refine (mapM_eq_ok_iff (fun id a => ?_) ids found).1 hfound
    cases lookup id <;> simp
  have hself : ∀ a ∈ found, lookup (name a) = some a := by
    intro a ha
    have hmem : some a ∈ ids.map lookup := hlookup ▸ List.mem_map_of_mem ha
    obtain ⟨id, -, hid⟩ := List.mem_map.1 hmem
    rw [hname id a hid, hid]
  have hmap : (distinctBy key [] found).map name = ids.eraseDups := by
    rw [map_distinctBy_nil fun a ha b hb => ⟨hkey a b, fun hab => ?_⟩,
      map_key_of_lookup hname hlookup]
    rw [Option.some_inj.1 ((hself a ha).symm.trans (hab ▸ hself b hb))]
  refine ⟨hmap, ?_⟩
  rw [← hmap, List.map_map]
  exact List.map_congr_left fun a ha => hself a ((distinctBy_sublist key [] found).subset ha)

/-! ## The parts of a query -/

theorem resolveMetrics_eq_ok {ids : List String} {ms : List Metric}
    (h : resolveMetrics ids = .ok ms) :
    ms.map Metric.key = ids.eraseDups ∧ ids.eraseDups.map Catalog.metric? = ms.map some :=
  resolve_eq_ok (fun _ _ => Catalog.key_of_metric?) (fun _ _ heq => heq) h

theorem resolveDimensions_eq_ok {ids : List String} {ds : List Dimension}
    (h : resolveDimensions ids = .ok ds) :
    ds.map Dimension.key = ids.eraseDups ∧
      ids.eraseDups.map Catalog.dimension? = ds.map some :=
  resolve_eq_ok (fun _ _ => Catalog.key_of_dimension?) (fun _ _ heq => congrArg _ heq) h

theorem resolveFilters_eq_ok_iff {clauses found : List Filter.Clause} :
    resolveFilters clauses = .ok found ↔
      found = clauses.filterMap (·.normalized?) ∧ ∀ c ∈ found, c.check = .ok () := by
  unfold resolveFilters
  rw [mapM_check_eq_ok_iff]
  constructor
  · rintro ⟨rfl, h⟩
    exact ⟨rfl, h⟩
  · rintro ⟨rfl, h⟩
    exact ⟨rfl, h⟩

/-- **Composition** succeeds exactly with these parts. -/
theorem query_eq_ok_iff : s.query = .ok q ↔
    resolveMetrics s.metrics = .ok q.metrics ∧ resolveDimensions s.dimensions = .ok q.dimensions ∧
      resolveFilters s.filters = .ok q.filters ∧ q.period = s.period ∧
      q.limit = s.limit.filter (· > 0) ∧ q.order = s.order.filter (·.key ∈ q.outputKeys) := by
  unfold query
  simp only [bind_eq_ok_iff, pure, Except.pure, Except.ok.injEq]
  constructor
  · rintro ⟨ms, hms, ds, hds, fs, hfs, rfl⟩
    exact ⟨hms, hds, hfs, rfl, rfl, rfl⟩
  · rintro ⟨hms, hds, hfs, hperiod, hlimit, horder⟩
    refine ⟨_, hms, _, hds, _, hfs, ?_⟩
    obtain ⟨metrics, dimensions, filters, period, order, limit⟩ := q
    cases hperiod
    cases hlimit
    -- The output keys do not depend on the order.
    exact congrArg (fun o => Query.mk metrics dimensions filters s.period o _) horder.symm

/-- The columns are the identifiers that were picked, each once, dimensions first. -/
theorem outputKeys_of_query (h : s.query = .ok q) :
    q.outputKeys = s.dimensions.eraseDups ++ s.metrics.eraseDups := by
  obtain ⟨hms, hds, -⟩ := query_eq_ok_iff.1 h
  rw [Query.outputKeys, (resolveDimensions_eq_ok hds).1, (resolveMetrics_eq_ok hms).1]

theorem outputKeys_nodup_of_query (h : s.query = .ok q) : q.outputKeys.Nodup := by
  obtain ⟨hms, hds, -⟩ := query_eq_ok_iff.1 h
  obtain ⟨-, hmetrics⟩ := resolveMetrics_eq_ok hms
  obtain ⟨-, hdims⟩ := resolveDimensions_eq_ok hds
  rw [outputKeys_of_query h, List.nodup_append]
  refine ⟨nodup_eraseDups _, nodup_eraseDups _, fun id hd id' hm => ?_⟩
  rintro rfl
  -- The catalog would offer the identifier both as a dimension and as a metric.
  have hd' : Catalog.dimension? id ∈ q.dimensions.map some := hdims ▸ List.mem_map_of_mem hd
  have hm' : Catalog.metric? id ∈ q.metrics.map some := hmetrics ▸ List.mem_map_of_mem hm
  obtain ⟨d, -, hd⟩ := List.mem_map.1 hd'
  obtain ⟨m, -, hm⟩ := List.mem_map.1 hm'
  exact Catalog.metric?_dimension?_disjoint hm.symm hd.symm

/-- Only a missing metric or dimension can be wrong with a composed query. -/
theorem validate_of_query (h : s.query = .ok q) :
    q.validate =
      if s.metrics ≠ [] ∧ s.dimensions ≠ [] then .ok () else .error .notRunnable := by
  obtain ⟨hms, hds, -, -, -, horder⟩ := query_eq_ok_iff.1 h
  have hmetrics : q.metrics = [] ↔ s.metrics = [] := by
    rw [← List.map_eq_nil_iff, (resolveMetrics_eq_ok hms).1, eraseDups_eq_nil]
  have hdims : q.dimensions = [] ↔ s.dimensions = [] := by
    rw [← List.map_eq_nil_iff, (resolveDimensions_eq_ok hds).1, eraseDups_eq_nil]
  have hrun : q.isRunnable = true ↔ s.metrics ≠ [] ∧ s.dimensions ≠ [] := by
    simp [Query.isRunnable, hmetrics, hdims]
  split_ifs with hs
  · refine Query.validate_eq_ok_iff.2 ⟨hrun.2 hs, ?_, fun o ho => ?_⟩
    · rw [(resolveMetrics_eq_ok hms).1]
      exact nodup_eraseDups _
    · rw [horder, Option.filter_eq_some_iff] at ho
      simpa using ho.2
  · exact Query.validate_of_not_isRunnable (by simpa using mt hrun.1 hs)

/-! ## Composition -/

/-- What a query owes to the selection that it is composed from. -/
structure Composed (s : Selection) (q : Query) : Prop where
  metrics : s.metrics.eraseDups.map Catalog.metric? = q.metrics.map some
  metricKeys : q.metrics.map Metric.key = s.metrics.eraseDups
  dimensions : s.dimensions.eraseDups.map Catalog.dimension? = q.dimensions.map some
  filters : (s.filters.filter (!·.isEmpty)).map Filter.Clause.normalized? = q.filters.map some
  checked : ∀ c ∈ q.filters, c.check = .ok ()
  period : q.period = s.period
  limit : ∀ n, q.limit = some n ↔ s.limit = some n ∧ n ≠ 0
  order : ∀ o, q.order = some o ↔ s.order = some o ∧ o.key ∈ q.outputKeys
  outputKeys : q.outputKeys.Nodup
  validate : q.validate =
    if s.metrics ≠ [] ∧ s.dimensions ≠ [] then .ok () else .error .notRunnable

/-- **Every composed query is well formed.** -/
theorem composed_of_query (h : s.query = .ok q) : Composed s q := by
  obtain ⟨hms, hds, hfs, hperiod, hlimit, horder⟩ := query_eq_ok_iff.1 h
  obtain ⟨hfilters, hchecked⟩ := resolveFilters_eq_ok_iff.1 hfs
  exact {
    metrics := (resolveMetrics_eq_ok hms).2
    metricKeys := (resolveMetrics_eq_ok hms).1
    dimensions := (resolveDimensions_eq_ok hds).2
    filters := by rw [hfilters]; exact Filter.map_normalized?_filter s.filters
    checked := hchecked
    period := hperiod
    limit := fun n => by
      rw [hlimit, Option.filter_eq_some_iff]
      simp [UInt32.pos_iff_ne_zero]
    order := fun o => by
      rw [horder, Option.filter_eq_some_iff]
      simp
    outputKeys := outputKeys_nodup_of_query h
    validate := validate_of_query h }

/-- Repeated identifiers, a clause without a value, a list to split and a limit of zero. -/
theorem composed_of_query_repeated :
    let s : Selection :=
      { metrics := ["count_sale_id", "sum_total_amount", "count_sale_id"]
        dimensions := ["store_name", "store_name"]
        filters := [⟨.hourOfDay, .equals, .single "  "⟩, ⟨.dayOfWeek, .within, .single "1, 6,,7"⟩]
        order := some ⟨"count_sale_id", .descending⟩
        limit := some 0 }
    let q : Query :=
      { metrics := [⟨"sale_id", .count, "count_sale_id"⟩, ⟨"total_amount", .sum, "sum_total_amount"⟩]
        dimensions := [.store]
        filters := [⟨.dayOfWeek, .within, .many ["1", "6", "7"]⟩]
        order := some ⟨"count_sale_id", .descending⟩ }
    s.query = .ok q ∧ Composed s q := by
  intro s q
  have h : s.query = .ok q := by rfl
  exact ⟨h, composed_of_query h⟩

end Selection

end SalesExplorer
