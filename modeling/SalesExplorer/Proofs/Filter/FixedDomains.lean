import Mathlib.Tactic.Common
import SalesExplorer.Proofs.Selection.Faults

/-!
# Hours and weekdays

**Theorem (`fixed_domains_exact`).** A clause passes its check exactly if every item that it
considers (`Clause.considered`) fits its dimension (`Fits`). An hour is written by digits, perhaps
with a plus sign before them, for a number up to 23; a weekday is one of seven texts; everything
fits the other dimensions. A clause that fails is refused for the first item that does not fit.

An hour is read into 8 bits, and there are digits of any length that do not fit into them. Reading
stops where they do not, but the number that is written is then above 23 as well
(`byte?_eq_some_iff`). Zeros in front never are too many.
-/

namespace SalesExplorer.Filter

/-! ## Texts that fit -/

/-- Digits for a number up to 23, at least one of them, perhaps with a plus sign before them. -/
def IsHourText (t : String) : Prop :=
  ∃ ds, (t.toList = ds ∨ t.toList = '+' :: ds) ∧ ds ≠ [] ∧ (∀ c ∈ ds, '0' ≤ c ∧ c ≤ '9') ∧
    ofDigits ds ≤ 23

/-- The texts that fit a dimension. -/
def Fits : Dimension → String → Prop
  | .hourOfDay, t => IsHourText t
  | .dayOfWeek, t => t = "1" ∨ t = "2" ∨ t = "3" ∨ t = "4" ∨ t = "5" ∨ t = "6" ∨ t = "7"
  | _, _ => True

theorem natural?_eq_some_iff {s : List Char} {n : Nat} : natural? s = some n ↔
    ∃ ds, (s = ds ∨ s = '+' :: ds) ∧ ds ≠ [] ∧ (∀ c ∈ ds, isDigit c = true) ∧ ofDigits ds = n := by
  have hdigits : ∀ ds : List Char,
      (if ds.isEmpty || !ds.all isDigit then none else some (ofDigits ds)) = some n ↔
        ds ≠ [] ∧ (∀ c ∈ ds, isDigit c = true) ∧ ofDigits ds = n := by
    intro ds
    simp [and_assoc]
  by_cases hplus : ∃ ds, s = '+' :: ds
  · obtain ⟨rest, rfl⟩ := hplus
    apply (hdigits rest).trans
    constructor
    · intro h
      exact ⟨rest, .inr rfl, h⟩
    · intro ⟨ds, hs, hne, hall, hn⟩
      rcases hs with rfl | hs
      · exact absurd (hall '+' List.mem_cons_self) (by decide)
      · cases hs
        exact ⟨hne, hall, hn⟩
  · have hself : natural? s =
        if s.isEmpty || !s.all isDigit then none else some (ofDigits s) := by
      unfold natural?
      split
      · exact absurd ⟨_, rfl⟩ hplus
      · rfl
    rw [hself, hdigits]
    constructor
    · intro h
      exact ⟨s, .inl rfl, h⟩
    · intro ⟨ds, hs, h⟩
      rcases hs with rfl | hs
      · exact h
      · exact absurd ⟨ds, hs⟩ hplus

theorem isHourText_iff {t : String} : IsHourText t ↔ InDomain .hourOfDay t := by
  have hdigit : ∀ c : Char, '0' ≤ c ∧ c ≤ '9' ↔ isDigit c = true := by
    intro c
    simp [isDigit]
  unfold IsHourText InDomain
  simp only [hdigit, natural?_eq_some_iff]
  apply Iff.intro
  · intro h
    obtain ⟨ds, hs, hne, hall, hle⟩ := h
    exact ⟨_, ⟨ds, hs, hne, hall, rfl⟩, hle⟩
  · intro h
    obtain ⟨n, ⟨ds, hs, hne, hall, hn⟩, hle⟩ := h
    exact ⟨ds, hs, hne, hall, hn ▸ hle⟩

/-- The texts for an hour: the digits of a number up to 23, with any number of zeros in front of
them, and perhaps a plus sign first. -/
theorem isHourText_iff_zeros {t : String} : IsHourText t ↔
    ∃ sign k n, (sign = [] ∨ sign = ['+']) ∧ n ≤ 23 ∧
      t.toList = sign ++ (List.replicate k '0' ++ Nat.toDigits 10 n) := by
  unfold IsHourText
  apply Iff.intro
  · intro h
    obtain ⟨ds, hs, hne, hall, hle⟩ := h
    have hdigits : ∀ c ∈ ds, isDigit c = true := fun c hc => by simpa [isDigit] using hall c hc
    obtain ⟨k, hk⟩ := exists_eq_zeros_append_toDigits hne hdigits
    rcases hs with hs | hs
    · exact ⟨[], k, _, .inl rfl, hle, hk ▸ hs⟩
    · exact ⟨['+'], k, _, .inr rfl, hle, by rw [← hk, hs]; rfl⟩
  · intro h
    obtain ⟨sign, k, n, hsign, hn, ht⟩ := h
    refine ⟨List.replicate k '0' ++ Nat.toDigits 10 n, ?_, ?_, ?_, ?_⟩
    · rcases hsign with rfl | rfl
      · exact .inl ht
      · exact .inr ht
    · exact List.append_ne_nil_of_right_ne_nil _ Nat.toDigits_ne_nil
    · intro c hc
      simpa [isDigit] using isDigit_of_mem_zeros_append hc
    · rwa [ofDigits_zeros_append]

theorem fits_iff_inDomain {d : Dimension} {t : String} : Fits d t ↔ InDomain d t := by
  cases d with
  | hourOfDay => exact isHourText_iff
  | dayOfWeek => simp [Fits, InDomain]
  | _ => exact Iff.rfl

/-! ## The check -/

/-- **Hours and weekdays.** A clause passes its check exactly if all items that it considers fit
its dimension, and otherwise it is refused for the first one that does not. A clause on another
dimension always passes. An hour is the digits of a number up to 23, with any number of zeros in
front of them and perhaps a plus sign first. -/
theorem fixed_domains_exact :
    (∀ c : Clause,
      (c.check = .ok () ↔ ∀ t ∈ c.considered, Fits c.field t) ∧
      (∀ fault, c.check = .error fault ↔ ∃ t, IsFirst (fun t => ¬Fits c.field t) c.considered t ∧
        (c.field = .hourOfDay ∧ fault = .validation (.hour t) ∨
          c.field = .dayOfWeek ∧ fault = .validation (.weekday t))) ∧
      (c.field ≠ .hourOfDay → c.field ≠ .dayOfWeek → c.check = .ok ())) ∧
    ∀ t, Fits .hourOfDay t ↔ ∃ sign k n, (sign = [] ∨ sign = ['+']) ∧ n ≤ 23 ∧
      t.toList = sign ++ (List.replicate k '0' ++ Nat.toDigits 10 n) := by
  refine ⟨fun c => ⟨?_, fun fault => ?_, fun hhour hweekday => ?_⟩, fun t => isHourText_iff_zeros⟩
  · simp only [check_eq_ok_iff, checkedItems_eq_considered, fits_iff_inDomain]
  · simp only [check_eq_error_iff, checkedItems_eq_considered, fits_iff_inDomain]
    constructor
    · intro ⟨t, v, ht, hv, hfault⟩
      refine ⟨t, ht, hv.imp ?_ ?_⟩
      · intro ⟨hd, hv⟩
        exact ⟨hd, hv ▸ hfault⟩
      · intro ⟨hd, hv⟩
        exact ⟨hd, hv ▸ hfault⟩
    · intro ⟨t, ht, h⟩
      rcases h with ⟨hd, hfault⟩ | ⟨hd, hfault⟩
      · exact ⟨t, _, ht, .inl ⟨hd, rfl⟩, hfault⟩
      · exact ⟨t, _, ht, .inr ⟨hd, rfl⟩, hfault⟩
  · rw [check_eq_ok_iff]
    intro t _
    exact inDomain_of_open (fun hd => hd.elim hweekday hhour) t

/-- An hour with zeros in front that do not fit into 8 bits as a number of digits, one that is too
great, and a clause without a fixed domain. -/
theorem fixed_domains_exact_padded :
    let hours : Clause := ⟨.hourOfDay, .within, .single " +0000000023, ,24 ,x"⟩
    let channels : Clause := ⟨.channel, .equals, .single "24"⟩
    hours.considered = ["+0000000023", "24", "x"] ∧
      hours.check = .error (.validation (.hour "24")) ∧
      channels.field ≠ .hourOfDay ∧ channels.field ≠ .dayOfWeek ∧ channels.check = .ok () := by
  intro hours channels
  have hconsidered : hours.considered = ["+0000000023", "24", "x"] := by decide
  have hfits : Fits .hourOfDay "+0000000023" :=
    (fixed_domains_exact.2 _).2 ⟨['+'], 8, 23, .inr rfl, le_rfl, by decide⟩
  have hnot : ¬Fits .hourOfDay "24" := by
    rw [fits_iff_inDomain, ← isHour_iff]
    decide
  refine ⟨hconsidered, ?_, by decide, by decide,
    (fixed_domains_exact.1 channels).2.2 (by decide) (by decide)⟩
  apply ((fixed_domains_exact.1 hours).2.1 _).2
  refine ⟨"24", ?_, .inl ⟨rfl, rfl⟩⟩
  rw [hconsidered]
  exact .tail (not_not.2 hfits) (.head hnot)

end SalesExplorer.Filter
