import SalesExplorer.Proofs.Wire.Records
import SalesExplorer.Wire.Query

/-!
# Queries written in different ways

**Theorem (`query_forms_agree`).** A query is read the same however its records are written, at any
depth: with their keys in any order, with keys that are no fields, or as arrays. Only in a metric
a key that is no field is a problem, and then no query is read.

The ways to write a query (`SameQuery`) follow its layout: each field is replaced with one that is
the same for the record, or the list of records, that it holds. As each field of a record has its
own place in the draft, all ways to write it are read alike (`SameRecord.decode`), and this is
passed on from the fields of a query to the query.
-/

namespace SalesExplorer.Wire

open Layout

/-! ## Places in the draft -/

/-- Which problem an absent field is does not matter where both fields are there. -/
theorem sameValue_required {α β γ : Type} {k k' : String} {o : Option α} {o' : Option β}
    {f : α → β → γ} (absent absent' : String → Problem) :
    SameValue (required absent k o >>= fun a => required absent k' o' >>= fun b => pure (f a b))
      (required absent' k o >>= fun a => required absent' k' o' >>= fun b => pure (f a b)) := by
  intro c
  simp only [bind_eq_ok_iff, required_eq_ok_iff]

section Independent

variable (medium : Medium)

theorem independent_metricLayout : (metricLayout medium).Independent :=
  .of_slots
    [⟨text, fun x d => { d with column := some x }⟩,
      ⟨aggregation medium, fun x d => { d with aggregation := some x }⟩,
      ⟨optional text, fun x d => { d with key := x }⟩]
    (by simp [metricLayout]) rfl (by simp [Slot.Apart])
    fun absent absent' _ => sameValue_required absent absent'

theorem independent_clauseLayout : (clauseLayout medium).Independent :=
  .of_slots
    [⟨dimension medium, fun x d => { d with field := some x }⟩,
      ⟨operator medium, fun x d => { d with operator := some x }⟩,
      ⟨filterValue, fun x d => { d with value := some x }⟩]
    (by simp [clauseLayout]) rfl (by simp [Slot.Apart])
    fun absent absent' _ => sameValue_required absent absent'

theorem independent_periodLayout : periodLayout.Independent :=
  .of_slots
    [⟨instant, fun x d => { d with start := some x }⟩,
      ⟨instant, fun x d => { d with stop := some x }⟩]
    (by simp [periodLayout]) rfl (by simp [Slot.Apart])
    fun absent absent' _ => sameValue_required absent absent'

theorem independent_orderLayout : (orderLayout medium).Independent :=
  .of_slots
    [⟨text, fun x d => { d with key := some x }⟩,
      ⟨direction medium, fun x d => { d with direction := some x }⟩]
    (by simp [orderLayout]) rfl (by simp [Slot.Apart])
    fun absent absent' _ => sameValue_required absent absent'

theorem independent_queryLayout : (queryLayout medium).Independent :=
  .of_slots
    [⟨list (metric medium), fun x d => { d with metrics := some x }⟩,
      ⟨list (dimension medium), fun x d => { d with dimensions := some x }⟩,
      ⟨list (clause medium), fun x d => { d with filters := x }⟩,
      ⟨optional (period medium), fun x d => { d with period := x }⟩,
      ⟨optional (order medium), fun x d => { d with order := x }⟩,
      ⟨optional limit, fun x d => { d with limit := x }⟩]
    (by simp [queryLayout]) rfl (by simp [Slot.Apart])
    fun absent absent' _ => sameValue_required absent absent'

end Independent

/-! ## The same parts -/

/-- Lists of values of which each is the same as the one in its place. -/
inductive SameItems (same : Json → Json → Prop) : Json → Json → Prop
  | arr {items items' : List Json} : List.Forall₂ same items items' →
      SameItems same (.arr items) (.arr items')

/-- A metric has no keys but its fields, and these hold no records. -/
def SameMetric : Json → Json → Prop :=
  SameRecord ["field", "function", "alias"] true fun _ => Eq

def SameClause : Json → Json → Prop :=
  SameRecord ["field", "operator", "value"] false fun _ => Eq

def SamePeriod : Json → Json → Prop :=
  SameRecord ["start_date", "end_date"] false fun _ => Eq

def SameOrder : Json → Json → Prop :=
  SameRecord ["field", "direction"] false fun _ => Eq

/-- What a field of a query may be replaced with. -/
def SameQueryField : Nat → Json → Json → Prop
  | 0 => SameItems SameMetric
  | 2 => SameItems SameClause
  | 3 => SamePeriod
  | 4 => SameOrder
  | _ => Eq

/-- **Ways to write a query**, its records at any depth. -/
def SameQuery : Json → Json → Prop :=
  SameRecord ["metrics", "dimensions", "filters", "time_range", "order_by", "limit"] false
    SameQueryField

section Parts

variable {α δ : Type} {L : Layout δ α} {medium : Medium} {v v' : Json}

/-- A record whose fields hold no records. -/
theorem SameRecord.decode_of_eq (hL : L.Independent)
    (h : SameRecord L.fields L.strict (fun _ => Eq) v v') :
    SameValue (L.decode medium (Source.ofJson v)) (L.decode medium (Source.ofJson v')) := by
  apply h.decode hL medium
  intro i w w' hw d
  rw [hw]
  exact .refl _

theorem SameItems.list {same : Json → Json → Prop} {read : Decoder α}
    (hread : ∀ w w', same w w' → SameValue (read (Source.ofJson w)) (read (Source.ofJson w')))
    (h : SameItems same v v') :
    SameValue (list read (Source.ofJson v)) (list read (Source.ofJson v')) := by
  obtain ⟨hitems⟩ := h
  simp only [Source.ofJson, Wire.list, Source.ofItems_eq_map]
  apply SameValue.mapM
  exact List.forall₂_map_left_iff.2 (List.forall₂_map_right_iff.2 (hitems.imp hread))

theorem SameRecord.eq_or_ne_null {fields : List String} {strict : Bool}
    {field : Nat → Json → Json → Prop} (h : SameRecord fields strict field v v') :
    v = v' ∨ Source.ofJson v ≠ .null ∧ Source.ofJson v' ≠ .null := by
  induction h with
  | refl v => exact .inl rfl
  | symm _ ih => exact ih.imp Eq.symm And.symm
  | trans _ _ ih ih' =>
    rcases ih with rfl | ⟨hu, hv⟩
    · exact ih'
    · rcases ih' with rfl | ⟨-, hw⟩
      · exact .inr ⟨hu, hv⟩
      · exact .inr ⟨hu, hw⟩
  | _ => exact .inr (by simp [Source.ofJson])

theorem optional_of_ne_null {read : Decoder α} {s : Source} (hs : s ≠ .null) :
    optional read s = read s >>= fun a => .ok (some a) := by
  cases s with
  | null => exact absurd rfl hs
  | _ => rfl

theorem SameRecord.optional {fields : List String} {strict : Bool}
    {field : Nat → Json → Json → Prop} {read : Decoder α}
    (hread : SameValue (read (Source.ofJson v)) (read (Source.ofJson v')))
    (h : SameRecord fields strict field v v') :
    SameValue (optional read (Source.ofJson v)) (optional read (Source.ofJson v')) := by
  rcases h.eq_or_ne_null with rfl | ⟨hv, hv'⟩
  · exact .refl _
  · rw [optional_of_ne_null hv, optional_of_ne_null hv']
    exact hread.bind fun _ => .refl _

end Parts

variable {medium : Medium} {v v' : Json}

/-! ## The same query -/

theorem SameMetric.metric (h : SameMetric v v') :
    SameValue (metric medium (Source.ofJson v)) (metric medium (Source.ofJson v')) :=
  SameRecord.decode_of_eq (independent_metricLayout medium) h

theorem SameClause.clause (h : SameClause v v') :
    SameValue (clause medium (Source.ofJson v)) (clause medium (Source.ofJson v')) :=
  SameRecord.decode_of_eq (independent_clauseLayout medium) h

theorem SamePeriod.period (h : SamePeriod v v') :
    SameValue (period medium (Source.ofJson v)) (period medium (Source.ofJson v')) :=
  SameRecord.decode_of_eq independent_periodLayout h

theorem SameOrder.order (h : SameOrder v v') :
    SameValue (order medium (Source.ofJson v)) (order medium (Source.ofJson v')) :=
  SameRecord.decode_of_eq (independent_orderLayout medium) h

theorem SameQueryField.read {i : Nat} (h : SameQueryField i v v') (d : QueryDraft) :
    SameValue ((queryLayout medium).read d i (Source.ofJson v))
      ((queryLayout medium).read d i (Source.ofJson v')) := by
  match i with
  | 0 => exact (SameItems.list (fun _ _ => SameMetric.metric) h).bind fun _ => .refl _
  | 2 => exact (SameItems.list (fun _ _ => SameClause.clause) h).bind fun _ => .refl _
  | 3 => exact (SameRecord.optional (SamePeriod.period h) h).bind fun _ => .refl _
  | 4 => exact (SameRecord.optional (SameOrder.order h) h).bind fun _ => .refl _
  | 1 | n + 5 =>
    rw [show v = v' from h]
    exact .refl _

theorem SameQuery.query (h : SameQuery v v') :
    SameValue (query medium (Source.ofJson v)) (query medium (Source.ofJson v')) := by
  apply SameRecord.decode (independent_queryLayout medium) medium _ h
  intro i w w' hw d
  exact hw.read d

/-! ## Stray keys of metrics -/

/-- A query has the metric among its metrics. -/
inductive HasMetric : Json → Json → Prop
  | member {ms : Members} {items : List Json} {m : Json} : ("metrics", .arr items) ∈ ms →
      m ∈ items → HasMetric (.obj ms) m
  | item {items rest : List Json} {m : Json} : m ∈ items → HasMetric (.arr (.arr items :: rest)) m

theorem HasMetric.exists_metric {m : Json} {q : Query} (hm : HasMetric v m)
    (h : query medium (Source.ofJson v) = .ok q) :
    ∃ x, metric medium (Source.ofJson m) = .ok x := by
  have hitem {items : List Json} {d e : QueryDraft} (hmem : m ∈ items)
      (hread : (queryLayout medium).read d 0 (Source.ofJson (.arr items)) = .ok e) :
      ∃ x, metric medium (Source.ofJson m) = .ok x := by
    obtain ⟨metrics, hmetrics, -⟩ := bind_eq_ok_iff.1 hread
    rw [Source.ofJson, Source.ofItems_eq_map] at hmetrics
    exact exists_mapM_eq_ok_iff.1 ⟨metrics, hmetrics⟩ _ (List.mem_map_of_mem hmem)
  cases hm with
  | member hmetrics hmem =>
    obtain ⟨d, hd, -⟩ := bind_eq_ok_iff.1 h
    rw [ofMembers_eq_map] at hd
    obtain ⟨d, e, hread⟩ := exists_read_of_readMembers hd rfl (List.mem_map_of_mem hmetrics)
    exact hitem hmem hread
  | item hmem =>
    obtain ⟨d, hd, -⟩ := bind_eq_ok_iff.1 h
    obtain ⟨e, hread, -⟩ := bind_eq_ok_iff.1 hd
    exact hitem hmem hread

/-- **A query is read the same however its records are written.** A key of a metric that is no
field is a problem. -/
theorem query_forms_agree (medium : Medium) :
    (∀ v v' : Json, SameQuery v v' → ∀ q : Query,
      query medium (Source.ofJson v) = .ok q ↔ query medium (Source.ofJson v') = .ok q) ∧
    ∀ (v : Json) (ms : Members) (k : String), HasMetric v (.obj ms) → k ∈ ms.keys →
      k ∉ ["field", "function", "alias"] →
        ∃ problem, query medium (Source.ofJson v) = .error problem := by
  refine ⟨fun v v' h => h.query, ?_⟩
  intro v ms k hm hk hstray
  cases hq : query medium (Source.ofJson v) with
  | error problem => exact ⟨problem, rfl⟩
  | ok q =>
    obtain ⟨x, hx⟩ := hm.exists_metric hq
    exact absurd (mem_fields_of_decode rfl hx hk) hstray

/-- All keys backwards, with a key in the order and one in the query that are no fields. -/
def backwardsQuery : Json :=
  .obj [("limit", .null),
    ("order_by", .obj [("direction", .str "desc"), ("field", .str "revenue"), ("nulls", .null)]),
    ("time_range", .null), ("filters", .arr []), ("dimensions", .arr [.str "store_name"]),
    ("metrics", .arr [.obj [("alias", .str "revenue"), ("function", .str "sum"),
      ("field", .str "total_amount")]]),
    ("page", .int 2)]

/-- The same with arrays in place of objects. -/
def positionalQuery : Json :=
  .arr [.arr [.arr [.str "total_amount", .str "sum", .str "revenue"]], .arr [.str "store_name"],
    .arr [], .null, .arr [.str "revenue", .str "desc"], .null]

theorem sameQuery_backwards_positional : SameQuery backwardsQuery positionalQuery := by
  have hmetric : SameMetric
      (.obj [("alias", .str "revenue"), ("function", .str "sum"), ("field", .str "total_amount")])
      (.arr [.str "total_amount", .str "sum", .str "revenue"]) :=
    .trans (.reorder (List.reverse_perm _).symm)
      (@SameRecord.positional _ _ _ [.str "total_amount", .str "sum", .str "revenue"] rfl)
  have horder : SameOrder
      (.obj [("direction", .str "desc"), ("field", .str "revenue"), ("nulls", .null)])
      (.arr [.str "revenue", .str "desc"]) :=
    .trans (.reorder (List.reverse_perm _).symm)
      (.trans (.symm (.extend rfl (by decide)))
        (@SameRecord.positional _ _ _ [.str "revenue", .str "desc"] rfl))
  refine .trans (.reorder (List.reverse_perm _).symm) (.trans (.symm (.extend rfl (by decide))) ?_)
  refine .trans (@SameRecord.positional _ _ _ [.arr [.obj _], .arr [.str "store_name"], .arr [],
    .null, .obj _, .null] rfl) ?_
  exact .trans (@SameRecord.item _ _ _ [] _ _ _ (SameItems.arr (.cons hmetric .nil)))
    (@SameRecord.item _ _ _ [_, _, _, _] _ _ _ horder)

theorem query_forms_agree_backwards :
    SameQuery backwardsQuery positionalQuery ∧
      query .memory (Source.ofJson backwardsQuery) = .ok
        ⟨[⟨"total_amount", .sum, "revenue"⟩], [.store], [], none, some ⟨"revenue", .descending⟩,
          none⟩ ∧
      ∃ problem, query .text (Source.ofJson (.obj [("metrics", .arr [.obj [("page", .int 2)]])])) =
        .error problem := by
  have hsame := sameQuery_backwards_positional
  refine ⟨hsame, ?_, ?_⟩
  · exact ((query_forms_agree .memory).1 _ _ hsame _).2 rfl
  · exact (query_forms_agree .text).2 _ _ "page" (.member (List.mem_singleton_self _)
      (List.mem_singleton_self _)) (by decide) (by decide)

end SalesExplorer.Wire
