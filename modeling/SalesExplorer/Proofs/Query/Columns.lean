import Mathlib.Data.List.Nodup
import Mathlib.Tactic.Common
import SalesExplorer.Proofs.Json.Members
import SalesExplorer.Query.Basic

/-!
# Validation, and the columns of a result

**Theorem (`validate_eq_ok_iff`).** A query passes validation exactly when it has a metric and a
dimension, no two of its metrics share a key, and it is sorted by one of its columns.

**Theorem (`outputKeys_nodup_iff`).** Validation looks at the metrics alone. The columns of a
validated query have different keys exactly when no dimension is repeated and no metric takes the
key of a dimension. This is also what a row needs to carry a value for every column: a row holds
one value for a key, so of two columns with one key the first loses its value (`Query.row`).

That it can go wrong is `validate_admits_shared_key`.
-/

namespace SalesExplorer

/-! ## Validation -/

theorem Dimension.key_injective : Function.Injective Dimension.key := by
  intro a b
  cases a <;> cases b <;> decide

namespace Query

variable {q : Query}

theorem firstRepeated?_eq_none_iff (seen l : List String) :
    firstRepeated? seen l = none ↔ l.Nodup ∧ ∀ k ∈ l, k ∉ seen := by
  induction l generalizing seen with
  | nil => simp [firstRepeated?]
  | cons k rest ih =>
    by_cases h : k ∈ seen
    · simp [firstRepeated?, h]
    · simp only [firstRepeated?, if_neg h, ih, List.mem_cons, not_or, List.nodup_cons,
        forall_eq_or_imp]
      constructor
      · rintro ⟨hnodup, hall⟩
        exact ⟨⟨fun hk => (hall k hk).1 rfl, hnodup⟩, h, fun j hj => (hall j hj).2⟩
      · rintro ⟨⟨hk, hnodup⟩, -, hall⟩
        exact ⟨hnodup, fun j hj => ⟨fun hjk => hk (hjk ▸ hj), hall j hj⟩⟩

/-- **What validation lets through.** -/
theorem validate_eq_ok_iff : q.validate = .ok () ↔
    q.isRunnable ∧ (q.metrics.map Metric.key).Nodup ∧
      ∀ o, q.order = some o → o.key ∈ q.outputKeys := by
  have hnodup : firstRepeated? [] (q.metrics.map Metric.key) = none ↔
      (q.metrics.map Metric.key).Nodup := by
    rw [firstRepeated?_eq_none_iff]
    simp
  rw [← hnodup]
  unfold validate
  cases q.isRunnable with
  | false => simp
  | true =>
    cases firstRepeated? [] (q.metrics.map Metric.key) with
    | some k => simp
    | none =>
      cases q.order with
      | none => simp
      | some o => by_cases h : o.key ∈ q.outputKeys <;> simp [h]

theorem validate_of_not_isRunnable (h : q.isRunnable = false) :
    q.validate = .error .notRunnable := by
  simp [validate, h]

/-! ## Columns -/

/-- The row that gets these values under the output keys, one after another. -/
def row (q : Query) (values : List Json) : Row := Members.setAll [] (q.outputKeys.zip values)

/-- Every column finds its value in every row exactly if the keys are different. -/
theorem outputKeys_nodup_iff_row (q : Query) : q.outputKeys.Nodup ↔
    ∀ values : List Json, values.length = q.outputKeys.length →
      q.outputKeys.map (Members.get? (q.row values)) = values.map some := by
  constructor
  · intro hnodup values hlen
    have hfst : (q.outputKeys.zip values).map Prod.fst = q.outputKeys :=
      List.map_fst_zip (Nat.le_of_eq hlen.symm)
    have hsnd : (q.outputKeys.zip values).map Prod.snd = values :=
      List.map_snd_zip (Nat.le_of_eq hlen)
    have h := Members.map_get?_setAll (q.outputKeys.zip values) []
    rw [hfst, hsnd] at h
    exact h hnodup
  · intro h
    -- With a value of its own for every place, two places with one key would share one value.
    let values := (List.range q.outputKeys.length).map fun i : Nat => Json.int i
    have hvalues : (values.map some).Nodup := by
      rw [List.map_map]
      refine List.nodup_range.map fun i j hij => ?_
      have hint : (i : Int) = j := by simpa using hij
      omega
    rw [← h values (by simp [values])] at hvalues
    exact hvalues.of_map

/-- **Different keys.** Between the columns of a validated query, exactly a repeated dimension or a
metric under the key of a dimension makes two keys equal, and a row then loses a value. -/
theorem outputKeys_nodup_iff (q : Query) (h : q.validate = .ok ()) :
    (q.outputKeys.Nodup ↔
      q.dimensions.Nodup ∧ ∀ m ∈ q.metrics, ∀ d ∈ q.dimensions, m.key ≠ d.key) ∧
    (q.outputKeys.Nodup ↔
      ∀ values : List Json, values.length = q.outputKeys.length →
        q.outputKeys.map (Members.get? (q.row values)) = values.map some) := by
  refine ⟨?_, outputKeys_nodup_iff_row q⟩
  obtain ⟨-, hmetrics, -⟩ := validate_eq_ok_iff.1 h
  unfold outputKeys
  rw [List.nodup_append, List.nodup_map_iff Dimension.key_injective]
  constructor
  · rintro ⟨hdims, -, hne⟩
    exact ⟨hdims, fun m hm d hd => (hne _ (List.mem_map_of_mem hd) _ (List.mem_map_of_mem hm)).symm⟩
  · rintro ⟨hdims, hne⟩
    refine ⟨hdims, hmetrics, ?_⟩
    intro k hk k' hk'
    obtain ⟨d, hd, rfl⟩ := List.mem_map.1 hk
    obtain ⟨m, hm, rfl⟩ := List.mem_map.1 hk'
    exact (hne m hm d hd).symm

/-- Two metrics and two dimensions with four different keys. -/
theorem outputKeys_nodup_iff_four :
    let q : Query :=
      { metrics := [.ofColumn "total_amount" .sum, .ofColumn "sale_id" .count]
        dimensions := [.store, .channel] }
    q.validate = .ok () ∧ q.outputKeys.Nodup := by
  intro q
  have h : q.validate = .ok () := by rfl
  exact ⟨h, (outputKeys_nodup_iff q h).1.2 (by decide)⟩

/-- A metric under the key of a dimension passes validation. -/
theorem validate_admits_shared_key : ¬ ∀ q : Query, q.validate = .ok () → q.outputKeys.Nodup := by
  intro h
  have hkeys := h
    { metrics := [⟨"total_amount", .sum, "store_name"⟩], dimensions := [.store] } (by rfl)
  exact absurd hkeys (by decide)

end Query

end SalesExplorer
