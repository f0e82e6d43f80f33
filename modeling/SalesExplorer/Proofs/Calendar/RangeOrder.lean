import Mathlib.Data.Nat.Find
import SalesExplorer.Proofs.Calendar.DayBounds

/-!
# Ranges of days in order

**Theorem (`range_in_order`).** In a zone with at most one change, two days away from the ends of
the calendar give a range exactly if the second is not before the first, and the range then starts
before it ends. The change may skip or repeat any length of local time.

The two bounds are searched apart from each other, so they are compared by the way in which each
search ends (`Settles`): with the first of the times tried that clocks show, or, where they show
none of them, with the bound itself read as UTC. Seconds that one change skips lie together, from
`change + a` up to `change + b` (`offsetsAt_eq_nil_iff_of_change`). This excludes that the start is
found after the change and the end before it, and that one bound is read as UTC while the other one
is on the same side of the skipped times. In what is left an offset of less than a day is too small
to take one bound past the other; where it comes nearest, the 999 milliseconds of the end remain.
-/

namespace SalesExplorer

namespace Instant

theorem ofMillis_lt_ofMillis {ms ms' : Int}
    (h : firstSecond * 1000 ≤ ms ∧ ms < (lastSecond + 1) * 1000)
    (h' : firstSecond * 1000 ≤ ms' ∧ ms' < (lastSecond + 1) * 1000) (hlt : ms < ms') :
    ofMillis ms h < ofMillis ms' h' := by
  rw [← not_le, le_iff]
  simp only [ofMillis]
  omega

end Instant

namespace Zone

variable {z : Zone} {d : Date}

/-! ## One change -/

/-- A zone without a change is one that changes to the offset that it has. -/
theorem OneChange.exists_change (hz : z.OneChange) : ∃ a change b : Int,
    (-86400 < a ∧ a < 86400) ∧ (-86400 < b ∧ b < 86400) ∧
      ∀ second, z.offsetsAt second = (Zone.mk a [(change, b)]).offsetsAt second := by
  have hbounded := hz.bounded
  rcases hz.cases with ⟨a, rfl⟩ | ⟨a, change, b, rfl⟩
  · have ha := hbounded a List.mem_cons_self
    refine ⟨a, 0, a, ha, ha, ?_⟩
    intro second
    rw [offsetsAt_fixed, offsetsAt_change]
    by_cases h : second - a < 0
    · rw [if_pos h, if_neg (by omega), List.append_nil]
    · rw [if_neg h, if_pos (by omega), List.nil_append]
  · exact ⟨a, change, b, hbounded a (by simp), hbounded b (by simp), fun _ => rfl⟩

/-! ## How a search ends -/

/-- The search for a bound of a day ends at a number of milliseconds. -/
inductive Settles (z : Zone) (side : Side) (d : Date) : Int → Prop
  /-- It ends at the first of the times tried that clocks show. -/
  | shown {k : Nat} {offset : Int} : k < 4 →
      (∀ i < k, z.offsetsAt (side.secondAt d i) = []) →
      side.offset? (z.offsetsAt (side.secondAt d k)) = some offset →
      Settles z side d (side.tried d k - offset * 1000)
  /-- Clocks show none of them, and the bound is read as UTC. -/
  | skipped : (∀ i < 4, z.offsetsAt (side.secondAt d i) = []) → Settles z side d (side.bound d)

theorem exists_first_lt (P : Nat → Prop) [DecidablePred P] (n : Nat) :
    (∃ k < n, P k ∧ ∀ i < k, ¬P i) ∨ ∀ i < n, ¬P i := by
  by_cases h : ∃ k, k < n ∧ P k
  · left
    obtain ⟨hlt, hP⟩ := Nat.find_spec h
    refine ⟨Nat.find h, hlt, hP, ?_⟩
    intro i hi hPi
    exact Nat.find_min h hi ⟨hi.trans hlt, hPi⟩
  · right
    intro i hi hPi
    exact h ⟨i, hi, hPi⟩

theorem Regular.exists_settles (hz : z.Regular) (hd : d.Interior) (side : Side) :
    ∃ ms h, z.Settles side d ms ∧ z.search? side d = some (Instant.ofMillis ms h) := by
  rcases exists_first_lt (fun i => z.offsetsAt (side.secondAt d i) ≠ []) 4 with
    ⟨k, hk, hshown, hgap⟩ | hgap
  · simp only [not_not] at hgap
    obtain ⟨offset, hoffset⟩ := side.exists_offset? hshown
    obtain ⟨h, hfound⟩ := hz.search?_eq hd side hk hgap hoffset
    exact ⟨_, h, .shown hk hgap hoffset, hfound⟩
  · simp only [not_not] at hgap
    refine ⟨side.bound d, bound_in_calendar hd side, .skipped hgap, ?_⟩
    have hnone : (candidates side (side.bound d)).findSome? (z.instant? side) = none := by
      rw [candidates_eq, List.findSome?_eq_none_iff]
      intro time htime
      obtain ⟨i, hi, rfl⟩ := List.mem_map.1 htime
      rw [List.mem_range] at hi
      obtain ⟨hlow, hhigh⟩ := tried_in_calendar hd side i hi
      rw [hz.instant?_eq side hlow hhigh, tried_ediv, hgap i hi]
      cases side <;> rfl
    rw [search?, hnone, Option.none_or, Instant.ofMillis?_eq_some]

/-! ## Both bounds -/

/-- Under one change, a search ends under the offset before it or the one after it, and only where
clocks skip the edge it goes beyond the edge; or they skip the edge, which is read as UTC. -/
theorem Settles.cases_of_change {a change b : Int} {side : Side} {ms : Int}
    (hoffsets : ∀ second, z.offsetsAt second = (Zone.mk a [(change, b)]).offsetsAt second)
    (h : z.Settles side d ms) :
    (∃ (k : Nat) (offset : Int), k < 4 ∧
      ms = (side.secondAt d k - offset) * 1000 + side.nanos / 1000000 ∧
      (0 < k → change + a ≤ side.edge d ∧ side.edge d < change + b) ∧
      ((offset = a ∧ side.secondAt d k < change + a ∧
          (side = .last → side.secondAt d k < change + b)) ∨
        (offset = b ∧ change + b ≤ side.secondAt d k ∧
          (side = .first → change + a ≤ side.secondAt d k)))) ∨
    (ms = side.edge d * 1000 + side.nanos / 1000000 ∧
      change + a ≤ side.edge d ∧ side.edge d < change + b) := by
  have hskipped : z.offsetsAt (side.secondAt d 0) = [] →
      change + a ≤ side.edge d ∧ side.edge d < change + b := by
    intro hgap
    rwa [hoffsets, offsetsAt_eq_nil_iff_of_change, side.secondAt_zero] at hgap
  cases h with
  | @shown k offset hk hgap hoffset =>
    rw [hoffsets] at hoffset
    refine .inl ⟨k, offset, hk, ?_, fun hpos => hskipped (hgap 0 hpos), offset?_of_change hoffset⟩
    rw [tried_eq]
    omega
  | skipped hgap =>
    refine .inr ⟨?_, hskipped (hgap 0 (by decide))⟩
    rw [← side.tried_zero, tried_eq, side.secondAt_zero]

/-- The search for a start ends before the search for an end on the same day or a later one. -/
theorem OneChange.settles_lt (hz : z.OneChange) {start stop : Date} {s t : Int}
    (hle : start.dayNumber ≤ stop.dayNumber) (hs : z.Settles .first start s)
    (ht : z.Settles .last stop t) : s < t := by
  obtain ⟨a, change, b, ha, hb, hoffsets⟩ := hz.exists_change
  have hstart := hs.cases_of_change hoffsets
  have hstop := ht.cases_of_change hoffsets
  simp only [Side.secondAt, Side.edge, Side.nanos, reduceCtorEq, false_implies, true_implies,
    and_true] at hstart hstop
  rcases hstart with ⟨k, offset, hk, rfl, hbeyond, hoffset⟩ | ⟨rfl, hskipped⟩
  · rcases hstop with ⟨k', offset', hk', rfl, hbeyond', hoffset'⟩ | ⟨rfl, hskipped'⟩
    · -- If the start were found after the change and the end before it, the end would be skipped.
      omega
    · -- The end of the day is skipped, so its midnight was tried first and is before the change.
      omega
  · rcases hstop with ⟨k', offset', hk', rfl, hbeyond', hoffset'⟩ | ⟨rfl, hskipped'⟩
    · -- Midnight is skipped, so the end of the day was tried first and is after the change.
      omega
    · omega

/-- **Ranges of days are in order.** Two days give a range unless the second is before the first. It
starts before it ends. -/
theorem range_in_order (hz : z.OneChange) {start stop : Date} (hstart : start.Interior)
    (hstop : stop.Interior) :
    (∀ problem, TimeRange.ofDays z start stop = .error problem ↔
      stop.dayNumber < start.dayNumber ∧ problem = .reversed start stop) ∧
    (start.dayNumber ≤ stop.dayNumber →
      ∃ r, TimeRange.ofDays z start stop = .ok r ∧ r.start < r.stop) := by
  obtain ⟨s, hs, hsettlesStart, hfirst⟩ := hz.regular.exists_settles hstart .first
  obtain ⟨t, ht, hsettlesStop, hlast⟩ := hz.regular.exists_settles hstop .last
  rw [search?_first, Option.some_inj] at hfirst
  rw [search?_last z hstop] at hlast
  rw [TimeRange.ofDays]
  by_cases hreversed : stop.dayNumber < start.dayNumber
  · rw [if_pos hreversed]
    refine ⟨?_, ?_⟩
    · intro problem
      rw [Except.error.injEq, and_iff_right hreversed, eq_comm]
    · intro hle
      exact absurd hreversed (Int.not_lt.2 hle)
  · rw [if_neg hreversed, hlast, hfirst]
    refine ⟨?_, ?_⟩
    · intro problem
      simp [hreversed]
    · intro hle
      have hlt := hz.settles_lt hle hsettlesStart hsettlesStop
      exact ⟨_, rfl, Instant.ofMillis_lt_ofMillis hs ht hlt⟩

/-- At midnight on 2024-03-01 clocks are set forward by nearly two days. All times tried for the
start are skipped, and its last second, the first one shown, is as near to midnight as an offset
can take it. -/
theorem range_in_order_skipped :
    let z : Zone := ⟨-86399, [(1709251200, 86399)]⟩
    let d : Date := ⟨2024, 3, 1, by decide⟩
    let before : Date := ⟨2024, 2, 29, by decide⟩
    z.OneChange ∧ d.Interior ∧ before.Interior ∧
      (∃ r, TimeRange.ofDays z d d = .ok r ∧ r.start < r.stop ∧ r.start.millis = 1709251200000 ∧
        r.stop.millis = 1709251200999) ∧
      TimeRange.ofDays z d before = .error (.reversed d before) := by
  intro z d before
  have hz : z.OneChange := ⟨by decide, by decide⟩
  have hd : d.Interior := by decide
  have hbefore : before.Interior := by decide
  obtain ⟨r, hr, hlt⟩ := (range_in_order hz hd hd).2 le_rfl
  refine ⟨hz, hd, hbefore, ⟨r, hr, hlt, ?_⟩,
    ((range_in_order hz hd hbefore).1 _).2 ⟨by decide, rfl⟩⟩
  have hbounds : (TimeRange.ofDays z d d).map (fun r => (r.start.millis, r.stop.millis)) =
      .ok (1709251200000, 1709251200999) := by
    decide +kernel
  rw [hr] at hbounds
  exact Prod.mk.inj (Except.ok.inj hbounds)

end Zone

end SalesExplorer
