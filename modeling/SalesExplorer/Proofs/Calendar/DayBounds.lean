import Mathlib.Order.Bounds.Basic
import Mathlib.Tactic.Common
import SalesExplorer.Proofs.Calendar.LocalTime

/-!
# Bounds of a day

**Theorem (`day_bounds_exact`).** In a zone with at most one change, where the change skips at most
90 minutes from one half hour to another, the bounds of a day are exact: the start is the least
instant at which clocks do not show a time before midnight, and the end is the greatest millisecond
at which they show a time before the next midnight. So a range of days covers every millisecond on
these days, and under a fixed offset one day ends a millisecond before the next one starts.

Both bounds are searched in the same way from the two sides of the day (`Side.Reaches`,
`search?`). Clocks show the whole seconds of a bound, so the search is followed in seconds first
(`HalfHourGap.exists_reaches`). Where clocks show the edge of the day, it is found at once. Where it
is skipped, the end of the gap is one, two or three half hours away, and what is found there is the
change itself.
-/

namespace SalesExplorer

/-- Neither the first nor the last day of the calendar. -/
def Date.Interior (d : Date) : Prop := firstDay < d.dayNumber ∧ d.dayNumber < lastDay

instance (d : Date) : Decidable d.Interior := inferInstanceAs (Decidable (_ ∧ _))

namespace Zone

variable {z : Zone} {d : Date} {side : Side} {a b change second offset : Int}

/-! ## The edges of a day -/

/-- The first second of a day, or the last one, as clocks show it. -/
def Side.edge (side : Side) (d : Date) : Int :=
  match side with
  | .first => d.dayNumber * 86400
  | .last => (d.dayNumber + 1) * 86400 - 1

/-- Some half hours from the edge into the day. -/
def Side.secondAt (side : Side) (d : Date) (i : Nat) : Int :=
  match side with
  | .first => side.edge d + 1800 * i
  | .last => side.edge d - 1800 * i

/-- Clocks show no time before the first edge from this second on, and not earlier; or no time after
the last edge up to this second, and not later. -/
def Side.Reaches (side : Side) (z : Zone) (d : Date) (s : Int) : Prop :=
  match side with
  | .first => side.edge d ≤ z.clock s ∧ ∀ t < s, z.clock t < side.edge d
  | .last => z.clock s ≤ side.edge d ∧ ∀ t > s, side.edge d < z.clock t

/-- The offset that is meant where a local time has several. -/
def Side.offset? (side : Side) (offsets : List Int) : Option Int :=
  match side with
  | .first => offsets.head?
  | .last => offsets.getLast?

theorem Side.secondAt_zero (side : Side) (d : Date) : side.secondAt d 0 = side.edge d := by
  cases side <;> simp [Side.secondAt]

theorem Side.mem_of_offset? {offsets : List Int} (h : side.offset? offsets = some offset) :
    offset ∈ offsets := by
  cases side with
  | first => exact List.mem_of_head? h
  | last => exact List.mem_of_getLast? h

theorem Side.exists_offset? (side : Side) {offsets : List Int} (h : offsets ≠ []) :
    ∃ offset, side.offset? offsets = some offset := by
  cases side with
  | first => exact ⟨_, List.head?_eq_some_head h⟩
  | last => exact ⟨_, List.getLast?_eq_some_getLast h⟩

/-! ## The search in seconds -/

/-- Of the two offsets that a local time may have, the first side takes the one before the change
and the last side the one after it. -/
theorem offset?_of_change
    (h : side.offset? ((Zone.mk a [(change, b)]).offsetsAt second) = some offset) :
    (offset = a ∧ second < change + a ∧ (side = .last → second < change + b)) ∨
      (offset = b ∧ change + b ≤ second ∧ (side = .first → change + a ≤ second)) := by
  rw [offsetsAt_change] at h
  cases side <;> simp only [Side.offset?] at h <;> split_ifs at h <;> simp at h <;> simp <;> omega

/-- The change is found one, two or three half hours from a skipped edge. -/
theorem exists_reaches_of_skipped (side : Side) (d : Date) (hstart : (change + a) % 1800 = 0)
    (hend : (change + b) % 1800 = 0) (hlength : b - a ≤ 5400)
    (hskipped : change + a ≤ side.edge d ∧ side.edge d < change + b) :
    ∃ (k : Nat) (offset : Int), k < 4 ∧
      (∀ i < k, (Zone.mk a [(change, b)]).offsetsAt (side.secondAt d i) = []) ∧
      side.offset? ((Zone.mk a [(change, b)]).offsetsAt (side.secondAt d k)) = some offset ∧
      side.Reaches (Zone.mk a [(change, b)]) d (side.secondAt d k - offset) := by
  simp only [offsetsAt_eq_nil_iff_of_change]
  cases side
  all_goals
    simp only [Side.edge, Side.secondAt, Side.Reaches, offsetsAt_change, clock_change] at hskipped ⊢
  · refine ⟨((change + b - d.dayNumber * 86400) / 1800).toNat, b, by omega, fun i hi => by omega,
      ?_⟩
    refine ⟨?_, ?_, fun s hs => ?_⟩ <;> split_ifs <;> first | rfl | omega
  · refine ⟨(((d.dayNumber + 1) * 86400 - (change + a)) / 1800).toNat, a, by omega,
      fun i hi => by omega, ?_⟩
    refine ⟨?_, ?_, fun s hs => ?_⟩ <;> split_ifs <;> first | rfl | omega

/-- **The search in seconds** finds where clocks reach the edge of a day. -/
theorem HalfHourGap.exists_reaches (hz : z.HalfHourGap) (side : Side) (d : Date) :
    ∃ (k : Nat) (offset : Int), k < 4 ∧ (∀ i < k, z.offsetsAt (side.secondAt d i) = []) ∧
      side.offset? (z.offsetsAt (side.secondAt d k)) = some offset ∧
      side.Reaches z d (side.secondAt d k - offset) := by
  rcases hz.cases with ⟨a, rfl⟩ | ⟨a, change, b, rfl⟩
  · refine ⟨0, a, by omega, by omega, by cases side <;> rfl, ?_⟩
    rw [side.secondAt_zero]
    cases side <;> exact ⟨by rw [clock_fixed]; omega, fun s hs => by rw [clock_fixed]; omega⟩
  by_cases hskipped : change + a ≤ side.edge d ∧ side.edge d < change + b
  · have hlt : a < b := by omega
    obtain ⟨hstart, hend, hlength⟩ := hz.gap (change, b) (List.mem_singleton_self _) hlt
    exact exists_reaches_of_skipped side d hstart hend hlength hskipped
  · -- Clocks show the edge itself.
    obtain ⟨offset, hoffset⟩ :=
      side.exists_offset? (mt offsetsAt_eq_nil_iff_of_change.1 hskipped)
    refine ⟨0, offset, by omega, by omega, side.secondAt_zero d ▸ hoffset, ?_⟩
    have hcases := offset?_of_change hoffset
    rw [side.secondAt_zero]
    cases side
    all_goals
      simp only [Side.Reaches, clock_change, reduceCtorEq, false_implies, true_implies] at hcases ⊢
      refine ⟨?_, fun s hs => ?_⟩ <;> split_ifs <;> omega

/-! ## The search in instants -/

theorem findSome?_range {α : Type} {f : Nat → Option α} {n k : Nat} {x : α} (hk : k < n)
    (hnone : ∀ i < k, f i = none) (hx : f k = some x) : (List.range n).findSome? f = some x := by
  rw [List.findSome?_eq_some_iff]
  refine ⟨List.range k, k, List.range' (k + 1) (n - k - 1), ?_, hx, fun i hi => ?_⟩
  · have hsplit : List.range' 0 k ++ List.range' (0 + k) (n - k - 1 + 1) =
        List.range' 0 (k + (n - k - 1 + 1)) :=
      List.range'_append_1
    rw [Nat.zero_add, List.range'_succ] at hsplit
    rw [List.range_eq_range', List.range_eq_range', hsplit]
    congr 1
    omega
  · exact hnone i (List.mem_range.1 hi)

theorem Regular.instant?_eq (hz : z.Regular) (side : Side) {ms : Int}
    (hlow : Instant.firstSecond * 1000 + millisPerDay ≤ ms)
    (hhigh : ms + millisPerDay ≤ (Instant.lastSecond + 1) * 1000) :
    z.instant? side ms =
      (side.offset? (z.offsetsAt (ms / 1000))).bind fun o => Instant.ofMillis? (ms - o * 1000) := by
  have hin : ∀ o ∈ z.offsetsAt (ms / 1000), ∃ t, Instant.ofMillis? (ms - o * 1000) = some t := by
    intro o ho
    have hbounds := hz.bounds_of_mem_offsetsAt ho
    simp only [millisPerDay] at hlow hhigh
    exact ⟨_, Instant.ofMillis?_eq_some ⟨by omega, by omega⟩⟩
  unfold instant?
  cases hoffsets : z.offsetsAt (ms / 1000) with
  | nil => cases side <;> rfl
  | cons o rest =>
    have hne : o :: rest ≠ [] := List.cons_ne_nil _ _
    rw [hoffsets] at hin
    obtain ⟨first, hfirst⟩ := hin o List.mem_cons_self
    obtain ⟨last, hlast⟩ := hin _ (List.getLast_mem hne)
    have hgetLast := List.getLast?_eq_some_getLast hne
    cases side <;> simp [Side.offset?, hgetLast, hfirst, hlast]

/-- The first millisecond of a day, or the last one. -/
def Side.bound (side : Side) (d : Date) : Int :=
  match side with
  | .first => midnight d
  | .last => midnight d + millisPerDay - 1

/-- The times tried for a bound, in order. -/
def Side.tried (side : Side) (d : Date) (i : Nat) : Int :=
  match side with
  | .first => side.bound d + i * halfHour
  | .last => side.bound d - i * halfHour

/-- The part of a second that a bound has. -/
def Side.nanos : Side → Nat
  | .first => 0
  | .last => 999000000

theorem candidates_eq (side : Side) (d : Date) :
    candidates side (side.bound d) = (List.range 4).map (side.tried d) := by
  cases side <;> rfl

theorem tried_eq (side : Side) (d : Date) (i : Nat) :
    side.tried d i = side.secondAt d i * 1000 + side.nanos / 1000000 := by
  cases side <;> simp only [Side.tried, Side.bound, Side.secondAt, Side.edge, Side.nanos, midnight,
    millisPerDay, halfHour] <;> omega

theorem tried_ediv (side : Side) (d : Date) (i : Nat) :
    side.tried d i / 1000 = side.secondAt d i := by
  rw [tried_eq]
  cases side <;> simp only [Side.nanos] <;> omega

theorem tried_in_calendar (hd : d.Interior) (side : Side) : ∀ i < 4,
    Instant.firstSecond * 1000 + millisPerDay ≤ side.tried d i ∧
      side.tried d i + millisPerDay ≤ (Instant.lastSecond + 1) * 1000 := by
  intro i hi
  obtain ⟨hfirst, hlast⟩ := hd
  rw [tried_eq]
  cases side <;> simp only [Side.secondAt, Side.edge, Side.nanos, millisPerDay, Instant.firstSecond,
    Instant.lastSecond, Instant.secondsPerDay] <;> omega

theorem Side.tried_zero (side : Side) (d : Date) : side.tried d 0 = side.bound d := by
  cases side <;> simp [Side.tried]

theorem bound_in_calendar (hd : d.Interior) (side : Side) :
    Instant.firstSecond * 1000 ≤ side.bound d ∧
      side.bound d < (Instant.lastSecond + 1) * 1000 := by
  have hrange := tried_in_calendar hd side 0 (by decide)
  rw [side.tried_zero, millisPerDay] at hrange
  omega

/-- The search for a bound of a day, and its end where none of the times tried is shown. -/
def search? (z : Zone) (side : Side) (d : Date) : Option Instant :=
  ((candidates side (side.bound d)).findSome? (z.instant? side)).or
    (Instant.ofMillis? (side.bound d))

theorem search?_first (z : Zone) (d : Date) : z.search? .first d = some (z.startOfDay d) := by
  have hutc : Instant.ofMillis? (Side.first.bound d) = some (Instant.ofMillis (midnight d) _) :=
    Instant.ofMillis?_eq_some (midnight_in_calendar d)
  rw [search?, hutc, Option.or_some]
  rfl

theorem exists_next (hd : d.Interior) :
    ∃ next, d.addDays? 1 = some next ∧ next.dayNumber = d.dayNumber + 1 := by
  obtain ⟨hfirst, hlast⟩ := hd
  obtain ⟨next, hnext⟩ := Date.exists_dayNumber_eq (n := d.dayNumber + 1) (by omega) (by omega)
  exact ⟨next, Date.ofDayNumber?_eq_some_iff.2 hnext, hnext⟩

theorem search?_last (z : Zone) (hd : d.Interior) : z.search? .last d = z.endOfDay? d := by
  obtain ⟨next, hadd, hnext⟩ := exists_next hd
  have hbound : Side.last.bound d = midnight next - 1 := by
    simp only [Side.bound, midnight, hnext, millisPerDay]
    omega
  rw [search?, hbound, endOfDay?, hadd]
  rfl

/-- The first of the times tried that is not skipped decides. -/
theorem Regular.search?_eq (hz : z.Regular) (hd : d.Interior) (side : Side) {k : Nat} (hk : k < 4)
    (hgap : ∀ i < k, z.offsetsAt (side.secondAt d i) = [])
    (hoffset : side.offset? (z.offsetsAt (side.secondAt d k)) = some offset) :
    ∃ h, z.search? side d = some (Instant.ofMillis (side.tried d k - offset * 1000) h) := by
  have hbounds := hz.bounds_of_mem_offsetsAt (side.mem_of_offset? hoffset)
  obtain ⟨hlow, hhigh⟩ := tried_in_calendar hd side k hk
  have hfound : ∃ h, (candidates side (side.bound d)).findSome? (z.instant? side) =
      some (Instant.ofMillis (side.tried d k - offset * 1000) h) := by
    simp only [millisPerDay] at hlow hhigh
    refine ⟨⟨by omega, by omega⟩, ?_⟩
    rw [candidates_eq, List.findSome?_map]
    refine findSome?_range hk (fun i hi => ?_) ?_
    · obtain ⟨hlow, hhigh⟩ := tried_in_calendar hd side i (by omega)
      rw [Function.comp_apply, hz.instant?_eq side hlow hhigh, tried_ediv, hgap i hi]
      cases side <;> rfl
    · rw [Function.comp_apply, hz.instant?_eq side hlow hhigh, tried_ediv, hoffset]
      exact Instant.ofMillis?_eq_some _
  obtain ⟨h, hfound⟩ := hfound
  exact ⟨h, by rw [search?, hfound, Option.some_or]⟩

/-- **The search finds where clocks reach the edge**, at the whole second or its last
millisecond. -/
theorem HalfHourGap.exists_search?_eq (hz : z.HalfHourGap) (hd : d.Interior) (side : Side) :
    ∃ t, z.search? side d = some t ∧ t.WholeMillis ∧ t.nanos = side.nanos ∧
      side.Reaches z d t.seconds := by
  obtain ⟨k, offset, hk, hgap, hoffset, hreaches⟩ := hz.exists_reaches side d
  obtain ⟨h, hfound⟩ := hz.toOneChange.regular.search?_eq hd side hk hgap hoffset
  have hseconds : (Instant.ofMillis _ h).seconds = side.secondAt d k - offset := by
    rw [← tried_ediv]
    simp only [Instant.ofMillis]
    omega
  refine ⟨_, hfound, Instant.wholeMillis_ofMillis h, ?_, hseconds ▸ hreaches⟩
  simp only [Instant.ofMillis, tried_eq]
  cases side <;> simp only [Side.nanos] <;> omega

/-- **The start of a day**: a whole second, from which on clocks show no time before midnight. -/
theorem startOfDay_spec (hz : z.HalfHourGap) (hd : d.Interior) :
    (z.startOfDay d).nanos = 0 ∧
    d.dayNumber * Instant.secondsPerDay ≤ z.localSecond (z.startOfDay d) ∧
    ∀ s < (z.startOfDay d).seconds, z.clock s < d.dayNumber * Instant.secondsPerDay := by
  obtain ⟨t, ht, -, hnanos, hreaches⟩ := hz.exists_search?_eq hd .first
  obtain rfl := Option.some_inj.1 ((search?_first z d).symm.trans ht)
  exact ⟨hnanos, hreaches⟩

/-- **The end of a day**: the last millisecond of a second, after which clocks show no time before
the next midnight. -/
theorem endOfDay?_spec (hz : z.HalfHourGap) (hd : d.Interior) : ∃ t, z.endOfDay? d = some t ∧
    t.WholeMillis ∧ t.nanos = 999000000 ∧
    z.localSecond t < (d.dayNumber + 1) * Instant.secondsPerDay ∧
    ∀ s > t.seconds, (d.dayNumber + 1) * Instant.secondsPerDay ≤ z.clock s := by
  obtain ⟨t, ht, hwhole, hnanos, hshown, hafter⟩ := hz.exists_search?_eq hd .last
  refine ⟨t, (search?_last z hd).symm.trans ht, hwhole, hnanos, Int.lt_of_le_sub_one hshown, ?_⟩
  exact fun s hs => Int.le_of_sub_one_lt (hafter s hs)

/-! ## Exact bounds -/

/-- **The start of a day is the least instant** at which clocks show no time before its midnight. -/
theorem isLeast_startOfDay (hz : z.HalfHourGap) (hd : d.Interior) :
    IsLeast {t | d.dayNumber * Instant.secondsPerDay ≤ z.localSecond t} (z.startOfDay d) := by
  obtain ⟨hnanos, hstart, hleast⟩ := startOfDay_spec hz hd
  refine ⟨hstart, fun t ht => ?_⟩
  have hle : (z.startOfDay d).seconds ≤ t.seconds := by
    by_contra hlt
    exact absurd ht (Int.not_le.2 (hleast t.seconds (Int.not_le.1 hlt)))
  rcases Int.lt_or_eq_of_le hle with hlt | heq
  · exact Instant.le_iff.2 (Or.inl hlt)
  · exact Instant.le_iff.2 (Or.inr ⟨heq, by omega⟩)

/-- **The end of a day is the greatest millisecond** at which clocks show a time before the next
midnight. No later second, nor any part of one, shows such a time. -/
theorem exists_isGreatest_endOfDay (hz : z.HalfHourGap) (hd : d.Interior) :
    ∃ stop, z.endOfDay? d = some stop ∧
      IsGreatest {t | t.WholeMillis ∧ z.localSecond t < (d.dayNumber + 1) * Instant.secondsPerDay}
        stop ∧
      ∀ t, z.localSecond t < (d.dayNumber + 1) * Instant.secondsPerDay →
        t.seconds ≤ stop.seconds := by
  obtain ⟨stop, hstop, hwhole, hnanos, hend, hgreatest⟩ := endOfDay?_spec hz hd
  have hsecond : ∀ t, z.localSecond t < (d.dayNumber + 1) * Instant.secondsPerDay →
      t.seconds ≤ stop.seconds := by
    intro t ht
    by_contra hlt
    exact absurd ht (Int.not_lt.2 (hgreatest t.seconds (Int.not_le.1 hlt)))
  refine ⟨stop, hstop, ⟨⟨hwhole, hend⟩, fun t ht => ?_⟩, hsecond⟩
  rcases Int.lt_or_eq_of_le (hsecond t ht.2) with hlt | heq
  · exact Instant.le_iff.2 (Or.inl hlt)
  · exact Instant.le_iff.2 (Or.inr ⟨heq, hnanos ▸ ht.1.nanos_le⟩)

/-- **A range of days** covers every millisecond on these days. -/
theorem exists_ofDays_covers (hz : z.HalfHourGap) {start stop : Date} (hstart : start.Interior)
    (hstop : stop.Interior) (hle : start.dayNumber ≤ stop.dayNumber) :
    ∃ r, TimeRange.ofDays z start stop = .ok r ∧
      ∀ t day, t.WholeMillis → z.localDate? t = some day → start.dayNumber ≤ day.dayNumber →
        day.dayNumber ≤ stop.dayNumber → r.start ≤ t ∧ t ≤ r.stop := by
  obtain ⟨last, hlast, ⟨-, hgreatest⟩, -⟩ := exists_isGreatest_endOfDay hz hstop
  refine ⟨⟨z.startOfDay start, last⟩, ?_, fun t day hwhole hday hfrom hto => ⟨?_, ?_⟩⟩
  · rw [TimeRange.ofDays, if_neg (Int.not_lt.2 hle), hlast]
  · refine (isLeast_startOfDay hz hstart).2 ?_
    have hnumber := Date.ofDayNumber?_eq_some_iff.1 hday
    show start.dayNumber * Instant.secondsPerDay ≤ z.localSecond t
    simp only [Instant.secondsPerDay] at hnumber ⊢
    omega
  · refine hgreatest ⟨hwhole, ?_⟩
    have hnumber := Date.ofDayNumber?_eq_some_iff.1 hday
    simp only [Instant.secondsPerDay] at hnumber ⊢
    omega

theorem exists_endOfDay_fixed {a : Int} (hz : (fixed a).HalfHourGap) {next : Date} (hd : d.Interior)
    (hnext : next.Interior) (hadd : d.addDays? 1 = some next) :
    ∃ stop, (fixed a).endOfDay? d = some stop ∧
      Instant.ofMillis? (stop.millis + 1) = some ((fixed a).startOfDay next) := by
  obtain ⟨stop, hstop, -, hnanos, hend, hgreatest⟩ := endOfDay?_spec hz hd
  obtain ⟨hnanos', hstart, hleast⟩ := startOfDay_spec hz hnext
  have hnumber : next.dayNumber = d.dayNumber + 1 := Date.ofDayNumber?_eq_some_iff.1 hadd
  refine ⟨stop, hstop, ?_⟩
  generalize (fixed a).startOfDay next = first at *
  have hafter := hgreatest (stop.seconds + 1) (by omega)
  have hbefore := hleast (first.seconds - 1) (by omega)
  rw [localSecond, clock_fixed] at hend hstart
  rw [clock_fixed] at hafter hbefore
  rw [hnumber] at hstart hbefore
  have hms : stop.millis + 1 = first.seconds * 1000 := by
    rw [Instant.millis, hnanos]
    omega
  obtain ⟨seconds, nanos, hvalid⟩ := first
  simp only at hnanos' hms
  subst hnanos'
  rw [hms, Instant.ofMillis?, Int.mul_ediv_cancel _ (by decide), Int.mul_emod_left]
  exact dif_pos hvalid

/-- **The bounds of a day are exact**, away from the ends of the calendar. -/
theorem day_bounds_exact (hz : z.HalfHourGap) :
    (∀ d : Date, d.Interior →
      IsLeast {t | d.dayNumber * Instant.secondsPerDay ≤ z.localSecond t} (z.startOfDay d) ∧
      ∃ stop, z.endOfDay? d = some stop ∧
        IsGreatest {t | t.WholeMillis ∧ z.localSecond t < (d.dayNumber + 1) * Instant.secondsPerDay}
          stop ∧
        ∀ t, z.localSecond t < (d.dayNumber + 1) * Instant.secondsPerDay →
          t.seconds ≤ stop.seconds) ∧
    (∀ start stop : Date, start.Interior → stop.Interior → start.dayNumber ≤ stop.dayNumber →
      ∃ r, TimeRange.ofDays z start stop = .ok r ∧
        ∀ t day, t.WholeMillis → z.localDate? t = some day → start.dayNumber ≤ day.dayNumber →
          day.dayNumber ≤ stop.dayNumber → r.start ≤ t ∧ t ≤ r.stop) ∧
    (z.changes = [] → ∀ d next : Date, d.Interior → next.Interior → d.addDays? 1 = some next →
      ∃ stop, z.endOfDay? d = some stop ∧
        Instant.ofMillis? (stop.millis + 1) = some (z.startOfDay next)) := by
  refine ⟨fun d hd => ⟨isLeast_startOfDay hz hd, exists_isGreatest_endOfDay hz hd⟩,
    fun start stop hstart hstop hle => exists_ofDays_covers hz hstart hstop hle,
    fun hfixed d next hd hnext hadd => ?_⟩
  obtain ⟨a, changes⟩ := z
  obtain rfl : changes = [] := hfixed
  exact exists_endOfDay_fixed hz hd hnext hadd

/-- Clocks go from midnight to one o'clock on 2018-11-04. -/
theorem day_bounds_exact_skipped :
    let z : Zone := ⟨-10800, [(1541300400, -7200)]⟩
    let d : Date := ⟨2018, 11, 4, by decide⟩
    let next : Date := ⟨2018, 11, 5, by decide⟩
    let noon : Instant := ⟨1541340000, 0, by decide⟩
    z.HalfHourGap ∧ d.Interior ∧ next.Interior ∧ d.addDays? 1 = some next ∧
      noon.WholeMillis ∧ z.localDate? noon = some d ∧
      IsLeast {t | d.dayNumber * Instant.secondsPerDay ≤ z.localSecond t} (z.startOfDay d) ∧
      (∃ r, TimeRange.ofDays z d next = .ok r ∧ r.start ≤ noon ∧ noon ≤ r.stop) ∧
      ∃ stop, (fixed (-10800)).endOfDay? d = some stop ∧
        Instant.ofMillis? (stop.millis + 1) = some ((fixed (-10800)).startOfDay next) := by
  intro z d next noon
  have hz : z.HalfHourGap := ⟨⟨by decide, by decide⟩, by decide⟩
  have hfixed : (fixed (-10800)).HalfHourGap := ⟨⟨by decide, by decide⟩, by decide⟩
  have hd : d.Interior := by decide
  have hnext : next.Interior := by decide
  have hadd : d.addDays? 1 = some next := by decide +kernel
  have hwhole : noon.WholeMillis := ⟨1541340000000, by decide +kernel⟩
  have hdate : z.localDate? noon = some d := by decide +kernel
  obtain ⟨hbounds, hcovers, -⟩ := day_bounds_exact hz
  obtain ⟨-, -, hadjacent⟩ := day_bounds_exact hfixed
  obtain ⟨r, hr, hin⟩ := hcovers d next hd hnext (by decide)
  exact ⟨hz, hd, hnext, hadd, hwhole, hdate, (hbounds d hd).1,
    ⟨r, hr, hin noon d hwhole hdate (by decide) (by decide)⟩, hadjacent rfl d next hd hnext hadd⟩

end Zone

end SalesExplorer
