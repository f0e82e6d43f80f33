import Mathlib.Data.Int.LeastGreatest
import Mathlib.Tactic.Common
import SalesExplorer.Proofs.Calendar.DayBounds

/-!
# Bounds on their own day

**Theorem (`bounds_on_day_iff`).** In a zone with any number of changes, the start of a day is on
this day exactly if clocks show midnight or one of the three half hours after it, or if the offset
is not negative at the second that midnight is in UTC. The end is on its day exactly if clocks show
the last second of the day or one of the three half hours before it, or if the offset is not
positive at the second that the last second is in UTC. A bound that is not on its day is on the
next one outside.

The search tries four local times, all of them on the day, and what it finds for one of them shows
that time (`Regular.localSecond_of_instant?`). It finds nothing exactly if clocks show none of the
four (`Regular.exists_instant?_iff`). Then the bound is read as UTC, and the offset decides.

Where no change skips more than 90 minutes, and none is within 90 minutes of another, clocks show
one of the four times (`Regular.shows_of_spaced`): at most one of the changes skips the bound,
and a third half hour is never skipped with it. That a longer gap takes the start to the day before
is `start_before_skipped_midnight`.
-/

namespace SalesExplorer

theorem Instant.seconds_of_ofMillis? {ms : Int} {t : Instant} (h : ofMillis? ms = some t) :
    t.seconds = ms / 1000 := by
  simp only [ofMillis?, ofSeconds?] at h
  split_ifs at h
  obtain rfl := Option.some_inj.1 h
  rfl

namespace Zone

variable {z : Zone} {d : Date} {side : Side} {ms : Int} {t : Instant}

theorem localDate?_eq_some_iff :
    z.localDate? t = some d ↔ z.localSecond t / Instant.secondsPerDay = d.dayNumber := by
  rw [localDate?, Date.ofDayNumber?_eq_some_iff, eq_comm]

/-! ## What the search finds -/

theorem Regular.localSecond_of_instant? (hz : z.Regular) (h : z.instant? side ms = some t) :
    z.localSecond t = ms / 1000 := by
  have hshown : ∀ offset ∈ z.offsetsAt (ms / 1000), ∀ u,
      Instant.ofMillis? (ms - offset * 1000) = some u → z.localSecond u = ms / 1000 := by
    intro offset hoffset u hu
    have hsecond : u.seconds = ms / 1000 - offset := by
      rw [Instant.seconds_of_ofMillis? hu]
      omega
    rw [localSecond, clock, hsecond, hz.mem_offsetsAt_iff.1 hoffset]
    omega
  simp only [instant?, Option.bind_eq_bind, Option.bind_eq_some_iff] at h
  obtain ⟨o, ho, first, hfirst, o', ho', last, hlast, hside⟩ := h
  cases side with
  | first =>
    obtain rfl := Option.some_inj.1 hside
    exact hshown o (List.mem_of_head? ho) _ hfirst
  | last =>
    obtain rfl := Option.some_inj.1 hside
    exact hshown o' (List.mem_of_getLast? ho') _ hlast

theorem Regular.exists_instant?_iff (hz : z.Regular) (side : Side)
    (hlow : Instant.firstSecond * 1000 + millisPerDay ≤ ms)
    (hhigh : ms + millisPerDay ≤ (Instant.lastSecond + 1) * 1000) :
    (∃ t, z.instant? side ms = some t) ↔ ∃ s, z.clock s = ms / 1000 := by
  constructor
  · rintro ⟨t, ht⟩
    exact ⟨t.seconds, hz.localSecond_of_instant? ht⟩
  · intro hshown
    have hne : z.offsetsAt (ms / 1000) ≠ [] := by
      rw [Ne, hz.offsetsAt_eq_nil_iff, not_forall]
      exact hshown.imp fun s hs => not_not.2 hs
    obtain ⟨offset, hoffset, hmem⟩ :
        ∃ offset, side.offset? (z.offsetsAt (ms / 1000)) = some offset ∧
          offset ∈ z.offsetsAt (ms / 1000) := by
      cases side with
      | first => exact ⟨_, List.head?_eq_some_head hne, List.head_mem hne⟩
      | last => exact ⟨_, List.getLast?_eq_some_getLast hne, List.getLast_mem hne⟩
    have hbounds := hz.bounds_of_mem_offsetsAt hmem
    simp only [millisPerDay] at hlow hhigh
    rw [hz.instant?_eq side hlow hhigh, hoffset]
    exact ⟨_, Instant.ofMillis?_eq_some ⟨by omega, by omega⟩⟩

/-! ## The bounds -/

/-- Clocks show the edge of the day, or one of the three half hours inside it. -/
def Shows (z : Zone) (side : Side) (d : Date) : Prop :=
  ∃ k : Nat, k < 4 ∧ ∃ s, z.clock s = side.secondAt d k

/-- Clocks show midnight at the start of the day, or one of the three half hours after it. -/
def ShowsStart (z : Zone) (d : Date) : Prop :=
  ∃ k : Nat, k < 4 ∧ ∃ s, z.clock s = d.dayNumber * 86400 + 1800 * k

/-- Clocks show the last second of the day, or one of the three half hours before it. -/
def ShowsEnd (z : Zone) (d : Date) : Prop :=
  ∃ k : Nat, k < 4 ∧ ∃ s, z.clock s = (d.dayNumber + 1) * 86400 - 1 - 1800 * k

/-- The offset takes the edge of the day, read as UTC, into the day. -/
def Side.Inward (side : Side) (offset : Int) : Prop :=
  match side with
  | .first => 0 ≤ offset
  | .last => offset ≤ 0

/-- The day next to a day on one side of it. -/
def Side.neighbour? (side : Side) (d : Date) : Option Date :=
  match side with
  | .first => d.addDays? (-1)
  | .last => d.addDays? 1

/-- A bound shows one of the times tried, or is the edge of the day in UTC. -/
theorem Regular.exists_search?_cases (hz : z.Regular) (hd : d.Interior) (side : Side) :
    ∃ t, z.search? side d = some t ∧
      ((∃ k : Nat, k < 4 ∧ z.localSecond t = side.secondAt d k) ∨
        ¬z.Shows side d ∧ t.seconds = side.edge d) := by
  rw [search?, candidates_eq]
  cases hfound : ((List.range 4).map (side.tried d)).findSome? (z.instant? side) with
  | some t =>
    obtain ⟨time, htime, ht⟩ := List.exists_of_findSome?_eq_some hfound
    obtain ⟨k, hk, rfl⟩ := List.mem_map.1 htime
    refine ⟨t, rfl, .inl ⟨k, List.mem_range.1 hk, ?_⟩⟩
    rw [hz.localSecond_of_instant? ht, tried_ediv]
  | none =>
    have hbound : Instant.ofMillis? (side.bound d) = some (Instant.ofMillis (side.bound d) _) :=
      Instant.ofMillis?_eq_some (bound_in_calendar hd side)
    refine ⟨_, by rw [Option.none_or, hbound], .inr ⟨?_, ?_⟩⟩
    · rintro ⟨k, hk, hshown⟩
      obtain ⟨hlow, hhigh⟩ := tried_in_calendar hd side k hk
      rw [← tried_ediv] at hshown
      obtain ⟨t, ht⟩ := (hz.exists_instant?_iff side hlow hhigh).2 hshown
      rw [List.findSome?_eq_none_iff] at hfound
      rw [hfound _ (List.mem_map_of_mem (List.mem_range.2 hk))] at ht
      cases ht
    · rw [Instant.seconds_of_ofMillis? hbound, ← side.tried_zero, tried_ediv, side.secondAt_zero]

/-- **A bound of a day** is on this day or on the one next to it. -/
theorem Regular.exists_localDate?_search? (hz : z.Regular) (hd : d.Interior) (side : Side) :
    ∃ t, z.search? side d = some t ∧
      (z.localDate? t = some d ↔ z.Shows side d ∨ side.Inward (z.offsetAt (side.edge d))) ∧
      (z.localDate? t = some d ∨ z.localDate? t = side.neighbour? d) := by
  obtain ⟨t, ht, hcases⟩ := hz.exists_search?_cases hd side
  refine ⟨t, ht, ?_⟩
  rw [localDate?_eq_some_iff]
  rcases hcases with ⟨k, hk, hshown⟩ | ⟨hnone, hutc⟩
  · have hday : z.localSecond t / Instant.secondsPerDay = d.dayNumber := by
      rw [hshown, Instant.secondsPerDay]
      cases side <;> simp only [Side.secondAt, Side.edge] <;> omega
    exact ⟨iff_of_true hday (.inl ⟨k, hk, _, hshown⟩), .inl hday⟩
  · have hbounds := hz.offsetAt_bounds (side.edge d)
    rw [or_iff_right hnone, localDate?, localSecond, clock, hutc, Instant.secondsPerDay]
    generalize z.offsetAt (side.edge d) = offset at hbounds
    by_cases hoffset : side.Inward offset
    · have hday : (side.edge d + offset) / 86400 = d.dayNumber := by
        cases side <;> simp only [Side.Inward, Side.edge] at * <;> omega
      exact ⟨iff_of_true hday hoffset, .inl hday⟩
    · refine ⟨iff_of_false ?_ hoffset, .inr ?_⟩
      · cases side <;> simp only [Side.Inward, Side.edge] at * <;> omega
      · cases side <;> simp only [Side.Inward, Side.edge, Side.neighbour?, Date.addDays?] at * <;>
          congr 1 <;> omega

/-! ## Changes apart from each other -/

/-- A change skips at most 90 minutes, and there is no other one within 90 minutes of it. -/
structure Spaced (z : Zone) : Prop where
  skip : ∀ s, z.offsetAt (s + 1) ≤ z.offsetAt s + 5400
  before : ∀ s, z.offsetAt (s + 1) ≠ z.offsetAt s →
    ∀ t, s - 5400 ≤ t → t ≤ s → z.offsetAt t = z.offsetAt s
  after : ∀ s, z.offsetAt (s + 1) ≠ z.offsetAt s →
    ∀ t, s < t → t ≤ s + 5401 → z.offsetAt t = z.offsetAt (s + 1)

/-- The last second at which clocks show a time before `m`. -/
theorem Regular.exists_last_before (hz : z.Regular) (m : Int) :
    ∃ s, z.clock s < m ∧ m ≤ z.clock (s + 1) := by
  obtain ⟨s, hs, hgreatest⟩ := Int.exists_greatest_of_bdd (P := fun s => z.clock s < m)
    ⟨m + 86400, fun s hs => by
      have := hz.offsetAt_bounds s
      simp only [clock] at hs
      omega⟩
    ⟨m - 86400, by
      have := hz.offsetAt_bounds (m - 86400)
      simp only [clock]
      omega⟩
  refine ⟨s, hs, Int.not_lt.1 fun hlt => ?_⟩
  have := hgreatest (s + 1) hlt
  omega

/-- Of a second and the next one, the one on the inner side of a midnight between them. -/
def Side.inner (side : Side) (s : Int) : Int :=
  match side with
  | .first => s + 1
  | .last => s

/-- The edge is shown, or else the third half hour inside it. -/
theorem Regular.shows_of_spaced (hz : z.Regular) (hs : z.Spaced) (side : Side) (d : Date) :
    z.Shows side d := by
  obtain ⟨s, hbefore, hafter⟩ := hz.exists_last_before
    (match side with | .first => side.edge d | .last => side.edge d + 1)
  have hskip := hs.skip s
  by_cases hshown : z.clock (side.inner s) = side.edge d
  · exact ⟨0, by decide, side.inner s, by rw [hshown, side.secondAt_zero]⟩
  · -- The offset changes between the two seconds, and not again up to the third half hour.
    have hin : z.offsetAt (side.secondAt d 3 - z.offsetAt (side.inner s)) =
        z.offsetAt (side.inner s) := by
      cases side
      all_goals simp only [clock, Side.inner, Side.secondAt, Side.edge] at *
      · exact hs.after s (by omega) _ (by omega) (by omega)
      · exact hs.before s (by omega) _ (by omega) (by omega)
    exact ⟨3, by decide, _, by rw [clock, hin]; omega⟩

/-! ## Both bounds -/

/-- **When the bounds of a day are on this day.** Each is exactly if clocks show one of the four
times tried for it, or if reading the bound as UTC stays on the day; else it is on the day next to
it. Where changes skip at most 90 minutes and are apart from each other, both are. -/
theorem bounds_on_day_iff (hz : z.Regular) (hd : d.Interior) :
    (z.localDate? (z.startOfDay d) = some d ↔
      z.ShowsStart d ∨ 0 ≤ z.offsetAt (d.dayNumber * 86400)) ∧
    (z.localDate? (z.startOfDay d) = some d ∨ z.localDate? (z.startOfDay d) = d.addDays? (-1)) ∧
    (∃ stop, z.endOfDay? d = some stop ∧
      (z.localDate? stop = some d ↔
        z.ShowsEnd d ∨ z.offsetAt ((d.dayNumber + 1) * 86400 - 1) ≤ 0) ∧
      (z.localDate? stop = some d ∨ z.localDate? stop = d.addDays? 1)) ∧
    (z.Spaced → z.ShowsStart d ∧ z.ShowsEnd d) := by
  obtain ⟨start, hfound, hstart, hneighbour⟩ := hz.exists_localDate?_search? hd .first
  obtain rfl := Option.some_inj.1 ((search?_first z d).symm.trans hfound)
  refine ⟨hstart, hneighbour, ?_, fun hs => ?_⟩
  · rw [← search?_last z hd]
    exact hz.exists_localDate?_search? hd .last
  · exact ⟨hz.shows_of_spaced hs .first d, hz.shows_of_spaced hs .last d⟩

/-- Clocks are set forward at midnight on 2018-11-04, and back on 2019-02-17. -/
theorem bounds_on_day_iff_summer :
    let z : Zone := ⟨-10800, [(1541300400, -7200), (1550368800, -10800)]⟩
    let d : Date := ⟨2018, 11, 4, by decide⟩
    z.Regular ∧ d.Interior ∧ z.Spaced ∧ z.localDate? (z.startOfDay d) = some d ∧
      ∃ stop, z.endOfDay? d = some stop ∧ z.localDate? stop = some d := by
  intro z d
  have hz : z.Regular := ⟨by decide, by decide⟩
  have hd : d.Interior := by decide
  have hs : z.Spaced := by
    refine ⟨fun s => ?_, fun s hs t hfrom hto => ?_, fun s hs t hfrom hto => ?_⟩
    all_goals
      simp only [z, offsetAt, List.foldl_cons, List.foldl_nil] at *
      split_ifs at * <;> omega
  obtain ⟨hstart, -, ⟨stop, hstop, hend, -⟩, hspaced⟩ := bounds_on_day_iff hz hd
  obtain ⟨hshowsStart, hshowsEnd⟩ := hspaced hs
  exact ⟨hz, hd, hs, hstart.2 (.inl hshowsStart), stop, hstop, hend.2 (.inl hshowsEnd)⟩

/-- Clocks go from midnight to two o'clock on 2024-03-01, which lasts 22 hours; its start is read as
UTC, at nine in the evening of the day before. -/
theorem start_before_skipped_midnight : ¬ ∀ (z : Zone) (d : Date), z.Regular → d.Interior →
    (∃ t, z.localDate? t = some d) → z.localDate? (z.startOfDay d) = some d ∧
      ∃ stop, z.endOfDay? d = some stop ∧ z.localDate? stop = some d := by
  intro h
  obtain ⟨hstart, -⟩ := h ⟨-10800, [(1709262000, -3600)]⟩ ⟨2024, 3, 1, by decide⟩
    ⟨by decide, by decide⟩ (by decide) ⟨⟨1709300000, 0, by decide⟩, by decide +kernel⟩
  exact absurd hstart (by decide +kernel)

end Zone

end SalesExplorer
