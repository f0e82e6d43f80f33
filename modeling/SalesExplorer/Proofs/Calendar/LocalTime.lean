import Mathlib.Data.Prod.Lex
import Mathlib.Tactic.Common
import SalesExplorer.Calendar.Range
import SalesExplorer.Proofs.Calendar.Date

/-!
# Local time

The other view of a zone: which offset is in force at an instant, and so which local time and which
local date it has. `Zone.offsetsAt` goes from a local time to its instants. The two views agree for
any number of changes in the order of time: a local time occurs under an offset exactly if this
offset is in force then (`Regular.mem_offsetsAt_iff`). For at most one change both are written out
(`clock_change`, `offsetsAt_change`).

Instants are ordered in time. A leap second comes after the second that it prolongs.
-/

namespace SalesExplorer

namespace Instant

theorem key_injective : Function.Injective fun t : Instant => toLex (t.seconds, t.nanos) := by
  intro t u h
  obtain ⟨s, n, ht⟩ := t
  obtain ⟨s', n', hu⟩ := u
  obtain ⟨rfl, rfl⟩ := Prod.mk.inj (toLex_inj.1 h)
  rfl

/-- In the order of time. -/
instance : LinearOrder Instant := LinearOrder.lift' _ key_injective

theorem le_iff {t u : Instant} :
    t ≤ u ↔ t.seconds < u.seconds ∨ t.seconds = u.seconds ∧ t.nanos ≤ u.nanos :=
  Prod.Lex.toLex_le_toLex

/-- A whole number of milliseconds after 1970-01-01T00:00:00Z. -/
def WholeMillis (t : Instant) : Prop := ∃ ms, ofMillis? ms = some t

theorem ofMillis?_eq_some {ms : Int} (h : firstSecond * 1000 ≤ ms ∧ ms < (lastSecond + 1) * 1000) :
    ofMillis? ms = some (ofMillis ms h) :=
  dif_pos (ofMillis ms h).valid

theorem WholeMillis.nanos_le {t : Instant} (h : t.WholeMillis) : t.nanos ≤ 999000000 := by
  obtain ⟨ms, hms⟩ := h
  simp only [ofMillis?, ofSeconds?] at hms
  split_ifs at hms
  obtain rfl := Option.some_inj.1 hms
  simp only
  omega

theorem wholeMillis_ofMillis {ms : Int}
    (h : firstSecond * 1000 ≤ ms ∧ ms < (lastSecond + 1) * 1000) : (ofMillis ms h).WholeMillis :=
  ⟨ms, ofMillis?_eq_some h⟩

end Instant

namespace Zone

/-- The offset in force at a second, for changes in the order of time. -/
def offsetAt (z : Zone) (second : Int) : Int :=
  z.changes.foldl (fun offset change => if change.1 ≤ second then change.2 else offset) z.offset

/-- What clocks show at a second. -/
def clock (z : Zone) (second : Int) : Int := second + z.offsetAt second

/-- The local time of an instant in seconds, as if it were UTC. -/
def localSecond (z : Zone) (t : Instant) : Int := z.clock t.seconds

/-- The local date of an instant; none outside the calendar. -/
def localDate? (z : Zone) (t : Instant) : Option Date :=
  Date.ofDayNumber? (z.localSecond t / Instant.secondsPerDay)

/-- Any number of changes in the order of time, between offsets of less than a day. -/
structure Regular (z : Zone) : Prop where
  ordered : z.changes.Pairwise (·.1 ≤ ·.1)
  bounded : ∀ offset ∈ z.offset :: z.changes.map Prod.snd, -86400 < offset ∧ offset < 86400

/-- At most one change, between offsets of less than a day. -/
structure OneChange (z : Zone) : Prop where
  single : z.changes.length ≤ 1
  bounded : ∀ offset ∈ z.offset :: z.changes.map Prod.snd, -86400 < offset ∧ offset < 86400

/-- Local times that the change skips are from one half hour to another, for 90 minutes at most. -/
structure HalfHourGap (z : Zone) : Prop extends OneChange z where
  gap : ∀ change ∈ z.changes, z.offset < change.2 →
    (change.1 + z.offset) % 1800 = 0 ∧ (change.1 + change.2) % 1800 = 0 ∧
      change.2 - z.offset ≤ 5400

variable {z : Zone} {a b change second : Int}

@[simp] theorem clock_fixed (a second : Int) : (fixed a).clock second = second + a := rfl

@[simp] theorem offsetsAt_fixed (a second : Int) : (fixed a).offsetsAt second = [a] := rfl

theorem clock_change (a change b second : Int) :
    (Zone.mk a [(change, b)]).clock second = second + if change ≤ second then b else a := rfl

theorem offsetsAt_change (a change b second : Int) :
    (Zone.mk a [(change, b)]).offsetsAt second =
      (if second - a < change then [a] else []) ++ if change ≤ second - b then [b] else [] := by
  simp only [offsetsAt, matching, Option.all_none, Option.all_some, Bool.true_and,
    decide_eq_true_eq]
  split_ifs <;> rfl

theorem offsetsAt_eq_nil_iff_of_change :
    (Zone.mk a [(change, b)]).offsetsAt second = [] ↔
      change + a ≤ second ∧ second < change + b := by
  rw [offsetsAt_change]
  split_ifs <;> simp <;> omega

theorem OneChange.cases (hz : z.OneChange) :
    (∃ a, z = fixed a) ∨ ∃ a change b, z = ⟨a, [(change, b)]⟩ := by
  obtain ⟨a, changes⟩ := z
  match changes, hz.single with
  | [], _ => exact Or.inl ⟨a, rfl⟩
  | [(change, b)], _ => exact Or.inr ⟨a, change, b, rfl⟩

theorem OneChange.regular (hz : z.OneChange) : z.Regular := by
  refine ⟨?_, hz.bounded⟩
  rcases hz.cases with ⟨a, rfl⟩ | ⟨a, change, b, rfl⟩
  · exact List.Pairwise.nil
  · exact List.pairwise_singleton _ _

/-! ## Any number of changes -/

@[simp] theorem offsetAt_nil (a second : Int) : (Zone.mk a []).offsetAt second = a := rfl

theorem offsetAt_cons (a change b : Int) (rest : List (Int × Int)) (second : Int) :
    (Zone.mk a ((change, b) :: rest)).offsetAt second =
      (Zone.mk (if change ≤ second then b else a) rest).offsetAt second := rfl

theorem offsetAt_of_lt {changes : List (Int × Int)} (h : ∀ c ∈ changes, second < c.1) :
    (Zone.mk a changes).offsetAt second = a := by
  induction changes with
  | nil => rfl
  | cons c rest ih =>
    obtain ⟨hc, hrest⟩ := List.forall_mem_cons.1 h
    rw [offsetAt_cons, if_neg (Int.not_le.2 hc)]
    exact ih hrest

theorem offsetAt_mem (a : Int) (changes : List (Int × Int)) (second : Int) :
    (Zone.mk a changes).offsetAt second ∈ a :: changes.map Prod.snd := by
  induction changes generalizing a with
  | nil => exact List.mem_singleton_self a
  | cons c rest ih =>
    rw [offsetAt_cons, List.map_cons]
    split_ifs with hc
    · exact List.mem_cons_of_mem a (ih c.2)
    · exact List.cons_subset_cons a (List.subset_cons_self ..) (ih a)

theorem mem_matching_nil {start : Option Int} {offset : Int} :
    offset ∈ matching second start a [] ↔ start.all (· ≤ second - offset) ∧ offset = a := by
  rw [matching]
  split_ifs with h
  · rw [List.mem_singleton]
    constructor
    · rintro rfl
      exact ⟨h, rfl⟩
    · exact And.right
  · refine iff_of_false List.not_mem_nil ?_
    rintro ⟨hstart, rfl⟩
    exact h hstart

theorem mem_matching_cons {start : Option Int} {c : Int × Int} {rest : List (Int × Int)}
    {offset : Int} : offset ∈ matching second start a (c :: rest) ↔
      (start.all (· ≤ second - offset) ∧ second - offset < c.1) ∧ offset = a ∨
        offset ∈ matching second (some c.1) c.2 rest := by
  rw [matching]
  simp only [Bool.and_eq_true, decide_eq_true_eq]
  split_ifs with h
  · rw [List.mem_cons]
    refine or_congr_left ⟨?_, And.right⟩
    rintro rfl
    exact ⟨h, rfl⟩
  · refine (or_iff_right ?_).symm
    rintro ⟨hboth, rfl⟩
    exact h hboth

/-- From the second `start` on, a local time occurs under the offsets that are in force then. -/
theorem mem_matching_iff {start : Option Int} {changes : List (Int × Int)} {offset : Int}
    (hordered : changes.Pairwise (·.1 ≤ ·.1)) (hstart : ∀ t ∈ start, ∀ c ∈ changes, t ≤ c.1) :
    offset ∈ matching second start a changes ↔
      start.all (· ≤ second - offset) ∧
        (Zone.mk a changes).offsetAt (second - offset) = offset := by
  induction changes generalizing start a with
  | nil => rw [mem_matching_nil, offsetAt_nil, eq_comm (a := offset)]
  | cons c rest ih =>
    obtain ⟨hnext, hrest⟩ := List.pairwise_cons.1 hordered
    have hlater : offset ∈ matching second (some c.1) c.2 rest ↔
        c.1 ≤ second - offset ∧ (Zone.mk c.2 rest).offsetAt (second - offset) = offset := by
      rw [ih hrest (by simpa using hnext), Option.all_some, decide_eq_true_eq]
    rw [mem_matching_cons, hlater, offsetAt_cons]
    by_cases hc : c.1 ≤ second - offset
    · -- The change has happened, so the first offset is not in force any more.
      have hall : start.all (· ≤ second - offset) := by
        cases start with
        | none => rfl
        | some t => exact decide_eq_true ((hstart t rfl c List.mem_cons_self).trans hc)
      simp only [if_pos, hall, hc, Int.not_lt.2 hc, and_false, false_and, false_or, true_and]
    · -- No later change has happened either.
      have hfirst : (Zone.mk a rest).offsetAt (second - offset) = a :=
        offsetAt_of_lt fun c' hc' => (Int.not_le.1 hc).trans_le (hnext c' hc')
      rw [if_neg hc, hfirst, and_iff_left (Int.not_le.1 hc), or_iff_left fun h => hc h.1,
        eq_comm (a := offset)]

/-- **The two views agree**: a local time occurs under an offset that is in force then. -/
theorem Regular.mem_offsetsAt_iff (hz : z.Regular) {offset : Int} :
    offset ∈ z.offsetsAt second ↔ z.offsetAt (second - offset) = offset := by
  rw [offsetsAt, mem_matching_iff hz.ordered (by simp), Option.all_none, eq_self, true_and]

theorem Regular.offsetAt_bounds (hz : z.Regular) (second : Int) :
    -86400 < z.offsetAt second ∧ z.offsetAt second < 86400 :=
  hz.bounded _ (offsetAt_mem z.offset z.changes second)

theorem Regular.bounds_of_mem_offsetsAt (hz : z.Regular) {offset : Int}
    (h : offset ∈ z.offsetsAt second) : -86400 < offset ∧ offset < 86400 := by
  rw [← hz.mem_offsetsAt_iff.1 h]
  exact hz.offsetAt_bounds _

/-- A local time is skipped exactly if clocks never show it. -/
theorem Regular.offsetsAt_eq_nil_iff (hz : z.Regular) :
    z.offsetsAt second = [] ↔ ∀ s, z.clock s ≠ second := by
  rw [List.eq_nil_iff_forall_not_mem]
  simp only [hz.mem_offsetsAt_iff]
  constructor
  · intro h s hs
    refine h (z.offsetAt s) ?_
    rw [← hs, clock, Int.add_sub_cancel]
  · intro h offset hoffset
    refine h (second - offset) ?_
    rw [clock, hoffset]
    omega

end Zone

end SalesExplorer
