import Mathlib.Data.List.Induction
import SalesExplorer.Proofs.Selection.History

/-!
# Picked identifiers

**Theorem (`picks_exact`).** After any edits of an empty selection, in any order and mixed with
edits of other kinds, both lists of identifiers are as the history says, and the catalog offers the
rest.

* *Membership*: an identifier is in a list where replaying the picks of that identifier alone says
  so. The others do not matter.
* *Order*: the identifiers stand in the order of their latest arrivals, the edits that last made
  them present.
* *Repeats*: there are none.

The three together are the invariant `Kept`, which a step keeps (`Kept.apply`). An edit either drops
identifiers of a list, and the others keep their arrivals (`Kept.sublist`), or it puts one at the
end that was not there, and is its latest arrival (`Kept.concat`).
-/

namespace SalesExplorer.Selection

/-! ## Replay of one identifier -/

/-- What an edit does with an identifier of a list. -/
def Edit.changeOf? (side : Side) (id : String) (e : Edit) : Option Change :=
  e.pick?.bind fun p => if p.side = side ∧ p.id = id then some p.change else none

/-- Whether an identifier is there after edits, by its own picks alone. -/
def present (side : Side) (id : String) (es : List Edit) : Bool :=
  (es.filterMap (Edit.changeOf? side id)).foldl (fun there c => c.act there) false

/-- The edit at place `n` makes an identifier present that was absent. -/
def Arrives (side : Side) (id : String) (es : List Edit) (n : Nat) : Prop :=
  present side id (es.take n) = false ∧ present side id (es.take (n + 1)) = true

def LatestArrival (side : Side) (id : String) (es : List Edit) (n : Nat) : Prop :=
  Arrives side id es n ∧ ∀ m, Arrives side id es m → m ≤ n

/-- The identifiers stand in the order of their latest arrivals. -/
def InArrivalOrder (side : Side) (es : List Edit) (l : List String) : Prop :=
  l.Pairwise fun x y => ∀ m n, LatestArrival side x es m → LatestArrival side y es n → m < n

/-- A list of identifiers is as the history says. -/
structure Kept (side : Side) (es : List Edit) (l : List String) : Prop where
  nodup : l.Nodup
  mem_iff : ∀ id, id ∈ l ↔ present side id es = true
  arrived : ∀ id ∈ l, ∃ n, LatestArrival side id es n
  ordered : InArrivalOrder side es l

variable {side : Side} {id x : String} {es : List Edit} {e : Edit} {l : List String} {n : Nat}

theorem present_concat (side : Side) (id : String) (es : List Edit) (e : Edit) :
    present side id (es ++ [e]) =
      (e.changeOf? side id).elim (present side id es) (·.act (present side id es)) := by
  cases h : e.changeOf? side id <;> simp [present, h]

/-! ## Arrivals -/

theorem Arrives.lt_length (h : Arrives side id es n) : n < es.length := by
  by_contra hn
  obtain ⟨habsent, hpresent⟩ := h
  rw [List.take_of_length_le (by omega)] at habsent hpresent
  exact Bool.false_ne_true (habsent.symm.trans hpresent)

theorem Arrives.le_length (h : Arrives side id (es ++ [e]) n) : n ≤ es.length := by
  have hlt := h.lt_length
  rw [List.length_append, List.length_singleton] at hlt
  exact Nat.le_of_lt_succ hlt

theorem arrives_concat_iff : Arrives side id (es ++ [e]) n ↔ Arrives side id es n ∨
    n = es.length ∧ present side id es = false ∧ present side id (es ++ [e]) = true := by
  rcases Nat.lt_trichotomy n es.length with hn | rfl | hn
  · simp [Arrives, List.take_append_of_le_length (Nat.le_of_lt hn),
      List.take_append_of_le_length (Nat.succ_le_of_lt hn), Nat.ne_of_lt hn]
  · have hnot : ¬ Arrives side id es es.length := fun h => Nat.lt_irrefl _ h.lt_length
    rw [or_iff_right hnot, Arrives, List.take_left, List.take_of_length_le (by simp)]
    simp
  · have hnot : ¬ Arrives side id es n := fun h => Nat.lt_asymm hn h.lt_length
    have hnot' : ¬ Arrives side id (es ++ [e]) n := fun h => Nat.not_le_of_lt hn h.le_length
    simp [hnot, hnot', Nat.ne_of_gt hn]

/-- No edit is an arrival of an identifier that is not newly there after it. -/
theorem latestArrival_concat_iff
    (h : present side id (es ++ [e]) = true → present side id es = true) :
    LatestArrival side id (es ++ [e]) n ↔ LatestArrival side id es n := by
  have hiff (m : Nat) : Arrives side id (es ++ [e]) m ↔ Arrives side id es m := by
    rw [arrives_concat_iff, or_iff_left]
    intro ⟨_, habsent, hpresent⟩
    exact Bool.false_ne_true (habsent.symm.trans (h hpresent))
  simp only [LatestArrival, hiff]

/-- An edit that makes an identifier present is its latest arrival. -/
theorem latestArrival_concat_iff_of_new (habsent : present side id es = false)
    (hpresent : present side id (es ++ [e]) = true) :
    LatestArrival side id (es ++ [e]) n ↔ n = es.length := by
  have hnew : Arrives side id (es ++ [e]) es.length :=
    arrives_concat_iff.2 (.inr ⟨rfl, habsent, hpresent⟩)
  apply Iff.intro
  · intro h
    exact Nat.le_antisymm h.1.le_length (h.2 _ hnew)
  · intro h
    subst h
    exact ⟨hnew, fun m hm => hm.le_length⟩

/-! ## One step -/

theorem mem_ids_apply (s : Selection) (e : Edit) (side : Side) (id : String) :
    id ∈ (s.apply e).ids side ↔
      (e.changeOf? side id).elim (decide (id ∈ s.ids side)) (·.act (id ∈ s.ids side)) = true := by
  cases hp : e.pick? with
  | none => simp [ids_apply_of_pick?_eq_none s side hp, Edit.changeOf?, hp]
  | some p =>
    rw [apply_of_pick? s hp]
    by_cases hside : p.side = side
    · subst hside
      rw [ids_setIds_self, Change.mem_on]
      by_cases hid : p.id = id <;> simp [Edit.changeOf?, hp, hid]
    · simp [ids_setIds_of_ne s _ (Ne.symm hside), Edit.changeOf?, hp, hside]

theorem ids_apply_sublist_or_concat (s : Selection) (e : Edit) (side : Side) :
    ((s.apply e).ids side).Sublist (s.ids side) ∨
      ∃ id ∉ s.ids side, (s.apply e).ids side = s.ids side ++ [id] := by
  cases hp : e.pick? with
  | none => exact .inl (ids_apply_of_pick?_eq_none s side hp ▸ List.Sublist.refl _)
  | some p =>
    rw [apply_of_pick? s hp]
    by_cases hside : p.side = side
    · subst hside
      rw [ids_setIds_self]
      exact (p.change.on_sublist_or_concat _ p.id).imp_right fun h => ⟨p.id, h⟩
    · rw [ids_setIds_of_ne s _ (Ne.symm hside)]
      exact .inl (List.Sublist.refl _)

/-- Identifiers that were there already keep their order with their arrivals. -/
theorem InArrivalOrder.concat (h : InArrivalOrder side es l)
    (hl : ∀ x ∈ l, present side x es = true) : InArrivalOrder side (es ++ [e]) l := by
  refine h.imp_of_mem fun {x y} hx hy hxy m n hm hn => hxy m n ?_ ?_
  · exact (latestArrival_concat_iff fun _ => hl x hx).1 hm
  · exact (latestArrival_concat_iff fun _ => hl y hy).1 hn

namespace Kept

theorem arrived_concat (h : Kept side es l) (hx : x ∈ l) :
    ∃ n, LatestArrival side x (es ++ [e]) n := by
  obtain ⟨n, hn⟩ := h.arrived x hx
  exact ⟨n, (latestArrival_concat_iff fun _ => (h.mem_iff x).1 hx).2 hn⟩

/-- Where identifiers are only dropped, the others keep their arrivals and their order. -/
theorem sublist {l' : List String} (h : Kept side es l) (hl : l'.Sublist l)
    (hmem : ∀ id, id ∈ l' ↔ present side id (es ++ [e]) = true) : Kept side (es ++ [e]) l' where
  nodup := h.nodup.sublist hl
  mem_iff := hmem
  arrived _ hx := h.arrived_concat (hl.subset hx)
  ordered := (InArrivalOrder.concat h.ordered fun x => (h.mem_iff x).1).sublist hl

/-- An identifier that was not there arrives with the last edit, after all others. -/
theorem concat (h : Kept side es l) (hid : id ∉ l)
    (hmem : ∀ x, x ∈ l ++ [id] ↔ present side x (es ++ [e]) = true) :
    Kept side (es ++ [e]) (l ++ [id]) := by
  have hnew (n : Nat) : LatestArrival side id (es ++ [e]) n ↔ n = es.length := by
    have habsent : present side id es = false :=
      Bool.eq_false_iff.2 fun hpresent => hid ((h.mem_iff id).2 hpresent)
    exact latestArrival_concat_iff_of_new habsent ((hmem id).1 (by simp))
  refine ⟨?_, hmem, fun x hx => ?_, ?_⟩
  · rw [← List.concat_eq_append]
    exact h.nodup.concat hid
  · rcases List.mem_append.1 hx with hx | hx
    · exact h.arrived_concat hx
    · rw [List.mem_singleton.1 hx]
      exact ⟨es.length, (hnew _).2 rfl⟩
  · refine List.pairwise_append.2 ⟨?_, List.pairwise_singleton _ _, fun x hx y hy m n hm hn => ?_⟩
    · exact InArrivalOrder.concat h.ordered fun x => (h.mem_iff x).1
    · rw [List.mem_singleton.1 hy, hnew] at hn
      rw [hn]
      have hold : LatestArrival side x es m :=
        (latestArrival_concat_iff fun _ => (h.mem_iff x).1 hx).1 hm
      exact hold.1.lt_length

/-- **One step.** An edit keeps the list as the history says. -/
theorem apply {s : Selection} (h : Kept side es (s.ids side)) (e : Edit) :
    Kept side (es ++ [e]) ((s.apply e).ids side) := by
  have hmem (id : String) :
      id ∈ (s.apply e).ids side ↔ present side id (es ++ [e]) = true := by
    have hthere : decide (id ∈ s.ids side) = present side id es := by
      rw [Bool.eq_iff_iff, decide_eq_true_iff, h.mem_iff]
    rw [mem_ids_apply, present_concat, hthere]
  rcases ids_apply_sublist_or_concat s e side with hl | ⟨id, hid, hl⟩
  · exact h.sublist hl hmem
  · rw [hl] at hmem ⊢
    exact h.concat hid hmem

end Kept

/-! ## All edits -/

/-- **A whole history.** -/
theorem kept_after (es : List Edit) (side : Side) : Kept side es ((after es).ids side) := by
  induction es using List.reverseRecOn with
  | nil =>
    have hnil : (after []).ids side = [] := by cases side <;> rfl
    rw [hnil]
    exact ⟨List.nodup_nil, by simp [present], by simp, List.Pairwise.nil⟩
  | append_singleton es e ih =>
    rw [after_concat]
    exact ih.apply e

/-- Between two selections, a pick changed its own list, and in it only whether its own identifier
is there: the list without that identifier is the same list. -/
structure Pick.Made (p : Pick) (s t : Selection) : Prop where
  elsewhere : t = s.setIds p.side (t.ids p.side)
  others : (t.ids p.side).filter (· ≠ p.id) = (s.ids p.side).filter (· ≠ p.id)
  own : p.id ∈ t.ids p.side ↔ p.change.act (p.id ∈ s.ids p.side) = true

theorem made_apply (s : Selection) {p : Pick} (h : e.pick? = some p) : p.Made s (s.apply e) := by
  rw [apply_of_pick? s h]
  refine ⟨?_, ?_, ?_⟩
  · rw [ids_setIds_self]
  · rw [ids_setIds_self, Change.filter_on]
  · rw [ids_setIds_self, Change.mem_on, if_pos rfl]

/-! ## The rest of the catalog -/

/-- Of any options, those that are not picked are the ones that the history leaves absent. -/
theorem filter_notMem_ids {α : Type} (es : List Edit) (side : Side) (options : List α)
    (key : α → String) : (options.filter fun o => key o ∉ (after es).ids side) =
      options.filter fun o => !present side (key o) es := by
  refine List.filter_congr fun o _ => ?_
  simp [(kept_after es side).mem_iff]

/-- **Picks are exact.** The lists are as the history says; a pick changes no more than whether its
own identifier is in its own list; and the catalog offers the options that are not picked, each of
its options being offered or picked, and not both. -/
theorem picks_exact (es : List Edit) :
    (∀ side, Kept side es ((after es).ids side)) ∧
    (∀ (s : Selection) (e : Edit) (p : Pick), e.pick? = some p → p.Made s (s.apply e)) ∧
    (after es).availableMetrics =
      (Catalog.metrics.filter fun o => !present .metrics o.id es) ∧
    (after es).availableDimensions =
      (Catalog.dimensions.filter fun o => !present .dimensions o.id es) ∧
    (∀ o ∈ Catalog.metrics, o ∈ (after es).availableMetrics ↔ o.id ∉ (after es).metrics) ∧
    (∀ o ∈ Catalog.dimensions,
      o ∈ (after es).availableDimensions ↔ o.id ∉ (after es).dimensions) := by
  refine ⟨kept_after es, fun s e p h => made_apply s h, ?_, ?_, ?_, ?_⟩
  · exact filter_notMem_ids es .metrics Catalog.metrics (·.id)
  · exact filter_notMem_ids es .dimensions Catalog.dimensions (·.id)
  · intro o ho
    simp [availableMetrics, ho]
  · intro o ho
    simp [availableDimensions, ho]

/-- An identifier that comes back goes to the end, and can be dropped from there again. -/
theorem picks_exact_again :
    let es : List Edit := [.toggleMetric "a", .addMetric "b", .toggleMetric "a", .addMetric "b",
      .toggleMetric "a"]
    Kept .metrics es ["b", "a"] ∧ (Edit.toggleMetric "a").pick? = some ⟨.metrics, .toggle, "a"⟩ ∧
      Pick.Made ⟨.metrics, .toggle, "a"⟩ (after es) { metrics := ["b"] } := by
  intro es
  refine ⟨(picks_exact es).1 .metrics, rfl, ?_⟩
  exact (picks_exact es).2.1 (after es) (.toggleMetric "a") _ rfl

end SalesExplorer.Selection
