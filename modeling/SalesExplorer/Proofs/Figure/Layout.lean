import Mathlib.Algebra.Order.Field.Rat
import Mathlib.Data.List.TakeWhile
import Mathlib.Tactic.FieldSimp
import Mathlib.Tactic.Ring
import SalesExplorer.Figure
import SalesExplorer.Proofs.Text.Digits

/-!
# The layout of a figure

A figure without its sign has its whole in groups of three digits, of which the first may be shorter
and begins with a zero only if it is that zero alone, and then its decimals behind a comma, if it
has any (`Layout`). It is read with the dots left out and the comma as the decimal point
(`magnitudeReading`); a minus sign in front is read as such (`reading`).

**Main results.** `layout_magnitude`: that is how `magnitude` writes every number of
`10 ^ -places`, and `layout_iff`: that every text so laid out is written for some number.
`magnitudeReading_magnitude`: it is read back as the number that was written.
-/

namespace SalesExplorer.Figure

attribute [local instance (high)] instPowNat

variable {s g : List Char} {places : ℕ}

/-! ## Digits in groups -/

/-- Digits in groups of three, with a dot between two groups. The first has one to three. -/
inductive Grouped : List Char → Prop
  | first {g : List Char} (hdigits : ∀ c ∈ g, isDigit c = true) (hpos : 0 < g.length)
      (hle : g.length ≤ 3) : Grouped g
  | next {s g : List Char} (hs : Grouped s) (hdigits : ∀ c ∈ g, isDigit c = true)
      (hlen : g.length = 3) : Grouped (s ++ '.' :: g)

theorem group_of_length_le (h : s.length ≤ 3) : group s = s := by
  induction s with
  | nil => rfl
  | cons c s ih =>
    rw [List.length_cons] at h
    have hcond : ¬(s.length % 3 = 0 ∧ s ≠ []) := by
      rw [← List.length_pos_iff_ne_nil]
      omega
    rw [group, if_neg hcond, ih (by omega)]

/-- The last three digits are a group of their own. -/
theorem group_append (hs : s ≠ []) (hg : g.length = 3) : group (s ++ g) = group s ++ '.' :: g := by
  induction s with
  | nil => contradiction
  | cons c s ih =>
    have hlen : (s ++ g).length % 3 = s.length % 3 := by
      rw [List.length_append, hg, Nat.add_mod_right]
    have hne : s ++ g ≠ [] := by
      rw [← List.length_pos_iff_ne_nil, List.length_append]
      omega
    rw [List.cons_append, group, hlen]
    by_cases hnil : s = []
    · rw [hnil, List.nil_append, if_pos ⟨rfl, by rintro rfl; contradiction⟩,
        group_of_length_le hg.le]
      rfl
    · rw [ih hnil, group]
      split_ifs with h h' h'
      · rfl
      · exact absurd ⟨h.1, hnil⟩ h'
      · exact absurd ⟨h'.1, hne⟩ h
      · rfl

theorem grouped_group (hs : s ≠ []) (hdigits : ∀ c ∈ s, isDigit c = true) :
    Grouped (group s) := by
  -- By the last three digits.
  induction hlen : s.length using Nat.strongRecOn generalizing s with
  | ind n ih =>
    by_cases hle : s.length ≤ 3
    · rw [group_of_length_le hle]
      exact .first hdigits (List.length_pos_iff_ne_nil.2 hs) hle
    · obtain ⟨s, g, rfl, hg⟩ : ∃ t g, s = t ++ g ∧ g.length = 3 :=
        ⟨s.take (s.length - 3), s.drop (s.length - 3), (List.take_append_drop _ _).symm,
          by rw [List.length_drop]; omega⟩
      rw [List.length_append] at hlen hle
      have hne : s ≠ [] := by
        rw [← List.length_pos_iff_ne_nil]
        omega
      rw [group_append hne hg]
      exact .next (ih s.length (by omega) hne (fun c hc => hdigits c (by simp [hc])) rfl)
        (fun c hc => hdigits c (by simp [hc])) hg

theorem head?_group (s : List Char) : (group s).head? = s.head? := by
  cases s with
  | nil => rfl
  | cons c s =>
    rw [group]
    split_ifs <;> rfl

theorem filter_group (hs : '.' ∉ s) : (group s).filter (· != '.') = s := by
  induction s with
  | nil => rfl
  | cons c s ih =>
    rw [List.mem_cons, not_or] at hs
    have hc : (c != '.') = true := by simpa using Ne.symm hs.1
    rw [group]
    split_ifs <;> simp [hc, ih hs.2]

theorem filter_group_toDigits (n : ℕ) :
    (group (Nat.toDigits 10 n)).filter (· != '.') = Nat.toDigits 10 n :=
  filter_group fun h => absurd (isDigit_of_mem_toDigits h) (by decide)

theorem isDigit_of_mem_group {n : ℕ} {c : Char} (h : c ∈ group (Nat.toDigits 10 n))
    (hdot : c ≠ '.') : isDigit c = true := by
  have hfilter : c ∈ (group (Nat.toDigits 10 n)).filter (· != '.') :=
    List.mem_filter.2 ⟨h, bne_iff_ne.2 hdot⟩
  rw [filter_group_toDigits] at hfilter
  exact isDigit_of_mem_toDigits hfilter

/-! ## Decimals behind a comma -/

/-- The whole, and the decimals behind a comma if there are any. -/
def withDecimals (whole ds : List Char) : List Char :=
  if ds = [] then whole else whole ++ ',' :: ds

theorem mem_withDecimals {whole ds : List Char} {c : Char} (h : c ∈ withDecimals whole ds) :
    c ∈ whole ∨ c = ',' ∨ c ∈ ds := by
  rw [withDecimals] at h
  split_ifs at h
  · exact .inl h
  · rwa [List.mem_append, List.mem_cons] at h

/-- The decimals of a number of `10 ^ -places`. -/
def decimals (places n : ℕ) : List Char :=
  if places = 0 then [] else padded places (n % 10 ^ places)

theorem isDigit_of_mem_decimals (places n : ℕ) : ∀ c ∈ decimals places n, isDigit c = true := by
  intro c h
  rw [decimals] at h
  split_ifs at h
  · exact absurd h List.not_mem_nil
  · exact isDigit_of_mem_padded h

theorem length_decimals (places n : ℕ) : (decimals places n).length = places := by
  rw [decimals]
  split_ifs with hplaces
  · exact hplaces.symm
  · exact length_padded (Nat.pos_of_ne_zero hplaces) (Nat.mod_lt _ (Nat.pow_pos (by decide)))

theorem ofDigits_decimals (places n : ℕ) : ofDigits (decimals places n) = n % 10 ^ places := by
  rw [decimals]
  split_ifs with hplaces
  · rw [hplaces, Nat.pow_zero, Nat.mod_one]
    rfl
  · exact ofDigits_padded _ _

theorem magnitude_eq (places n : ℕ) : magnitude places n =
    withDecimals (group (Nat.toDigits 10 (n / 10 ^ places))) (decimals places n) := by
  rw [magnitude, withDecimals, decimals]
  split_ifs with hplaces hnil hnil
  · rfl
  · exact absurd rfl hnil
  · exact absurd hnil (padded_ne_nil _ _)
  · rfl

/-! ## Layout -/

/-- How a figure without its sign is laid out. -/
inductive Layout : ℕ → List Char → Prop
  | whole {s : List Char} (hs : Grouped s) (hlead : s.head? = some '0' → s = ['0']) : Layout 0 s
  | decimals {s ds : List Char} (hs : Grouped s) (hlead : s.head? = some '0' → s = ['0'])
      (hdigits : ∀ c ∈ ds, isDigit c = true) (hpos : 0 < ds.length) :
      Layout ds.length (s ++ ',' :: ds)

theorem eq_zero_of_head?_group {n : ℕ} (h : (group (Nat.toDigits 10 n)).head? = some '0') :
    group (Nat.toDigits 10 n) = ['0'] := by
  rw [head?_group] at h
  obtain rfl : n = 0 := by
    by_contra hn
    exact head?_toDigits_ne_zero (Nat.pos_of_ne_zero hn) h
  rfl

theorem layout_withDecimals {whole ds : List Char} (hs : Grouped whole)
    (hlead : whole.head? = some '0' → whole = ['0']) (hdigits : ∀ c ∈ ds, isDigit c = true) :
    Layout ds.length (withDecimals whole ds) := by
  rw [withDecimals]
  split_ifs with hnil
  · rw [hnil]
    exact .whole hs hlead
  · exact .decimals hs hlead hdigits (List.length_pos_iff.2 hnil)

theorem grouped_group_toDigits (n : ℕ) : Grouped (group (Nat.toDigits 10 n)) :=
  grouped_group Nat.toDigits_ne_nil fun _ => isDigit_of_mem_toDigits

theorem layout_magnitude (places n : ℕ) : Layout places (magnitude places n) := by
  have hlayout := layout_withDecimals (grouped_group_toDigits (n / 10 ^ places))
    eq_zero_of_head?_group (isDigit_of_mem_decimals places n)
  rw [length_decimals] at hlayout
  rw [magnitude_eq]
  exact hlayout

/-- Digits in groups are digits that were grouped. -/
theorem Grouped.exists_digits (h : Grouped s) :
    ∃ ds, ds ≠ [] ∧ (∀ c ∈ ds, isDigit c = true) ∧ s = group ds := by
  induction h with
  | first hdigits hpos hle =>
    exact ⟨_, List.length_pos_iff_ne_nil.1 hpos, hdigits, (group_of_length_le hle).symm⟩
  | @next s g _ hdigits hlen ih =>
    obtain ⟨ds, hne, hds, rfl⟩ := ih
    refine ⟨ds ++ g, List.append_ne_nil_of_left_ne_nil hne g, fun c hc => ?_,
      (group_append hne hlen).symm⟩
    rcases List.mem_append.1 hc with hc | hc
    · exact hds c hc
    · exact hdigits c hc

/-- They are those of a number, unless there are zeros in front. -/
theorem Grouped.exists_eq_group_toDigits (h : Grouped s)
    (hlead : s.head? = some '0' → s = ['0']) : ∃ n, s = group (Nat.toDigits 10 n) := by
  obtain ⟨ds, hne, hds, rfl⟩ := h.exists_digits
  obtain ⟨k, hk⟩ := exists_eq_zeros_append_toDigits hne hds
  cases k with
  | zero => exact ⟨ofDigits ds, congrArg group hk⟩
  | succ k =>
    refine ⟨0, hlead ?_⟩
    rw [head?_group, hk]
    rfl

/-- **Every layout** is the one of a number of `10 ^ -places`. -/
theorem layout_iff : Layout places s ↔ ∃ n, s = magnitude places n := by
  refine ⟨fun h => ?_, fun ⟨n, hn⟩ => hn ▸ layout_magnitude places n⟩
  cases h with
  | whole hs hlead =>
    obtain ⟨n, rfl⟩ := hs.exists_eq_group_toDigits hlead
    exact ⟨n, by simp [magnitude]⟩
  | @decimals s ds hs hlead hdigits hpos =>
    obtain ⟨n, rfl⟩ := hs.exists_eq_group_toDigits hlead
    obtain ⟨hpadded, hlt⟩ := eq_padded_ofDigits (List.length_pos_iff_ne_nil.1 hpos) hdigits
    have hparts : (ofDigits ds + 10 ^ ds.length * n) / 10 ^ ds.length = n ∧
        (ofDigits ds + 10 ^ ds.length * n) % 10 ^ ds.length = ofDigits ds :=
      (Nat.div_mod_unique (Nat.pow_pos (by decide))).2 ⟨rfl, hlt⟩
    refine ⟨ofDigits ds + 10 ^ ds.length * n, ?_⟩
    rw [magnitude, hparts.1, hparts.2, ← hpadded]
    exact (if_neg hpos.ne').symm

/-! ## Reading -/

/-- The number that a figure without its sign is read as. -/
def magnitudeReading (s : List Char) : ℚ :=
  let s := s.filter (· != '.')
  let decimals := (s.dropWhile (· != ',')).tail
  ofDigits (s.takeWhile (· != ',')) + ofDigits decimals / 10 ^ decimals.length

/-- The number that a figure is read as. -/
def reading : List Char → ℚ
  | '-' :: s => -magnitudeReading s
  | s => magnitudeReading s

theorem bne_of_isDigit {c d : Char} (hc : isDigit c = true) (hd : isDigit d = false) :
    (c != d) = true := by
  rw [bne_iff_ne]
  rintro rfl
  rw [hc] at hd
  contradiction

theorem magnitudeReading_withDecimals {whole ds : List Char} (hcomma : ',' ∉ whole)
    (hdigits : ∀ c ∈ ds, isDigit c = true) : magnitudeReading (withDecimals whole ds) =
      ofDigits (whole.filter (· != '.')) + ofDigits ds / 10 ^ ds.length := by
  have hwhole : ∀ c ∈ whole.filter (· != '.'), (c != ',') = true := fun c hc =>
    bne_iff_ne.2 fun heq => hcomma (heq ▸ (List.mem_filter.1 hc).1)
  have hds : ds.filter (· != '.') = ds :=
    List.filter_eq_self.2 fun c hc => bne_of_isDigit (hdigits c hc) (by decide)
  rw [magnitudeReading, withDecimals]
  split_ifs with hnil
  · rw [List.takeWhile_eq_self_iff.2 hwhole, List.dropWhile_eq_nil_iff.2 hwhole, hnil]
    rfl
  · have htake : (',' :: ds).takeWhile (· != ',') = [] := rfl
    have hdrop : (',' :: ds).dropWhile (· != ',') = ',' :: ds := rfl
    rw [List.filter_append, List.filter_cons_of_pos (by decide), hds,
      List.takeWhile_append_of_pos hwhole, htake, List.dropWhile_append_of_pos hwhole, hdrop,
      List.append_nil, List.tail_cons]

theorem comma_notMem_group (n : ℕ) : ',' ∉ group (Nat.toDigits 10 n) := fun h =>
  absurd (isDigit_of_mem_group h (by decide)) (by decide)

theorem magnitudeReading_magnitude (places n : ℕ) :
    magnitudeReading (magnitude places n) = n / 10 ^ places := by
  have hdiv : ((n / 10 ^ places : ℕ) : ℚ) * 10 ^ places + (n % 10 ^ places : ℕ) = n := by
    exact_mod_cast Nat.div_add_mod' n (10 ^ places)
  rw [magnitude_eq, magnitudeReading_withDecimals (comma_notMem_group _)
    (isDigit_of_mem_decimals places n), filter_group_toDigits, ofDigits_toDigits,
    ofDigits_decimals, length_decimals]
  field_simp
  exact hdiv

theorem minus_notMem_magnitude (places n : ℕ) : '-' ∉ magnitude places n := by
  intro h
  rw [magnitude_eq] at h
  have hnot : ¬isDigit '-' = true := by decide
  rcases mem_withDecimals h with h | h | h
  · exact hnot (isDigit_of_mem_group h (by decide))
  · contradiction
  · exact hnot (isDigit_of_mem_decimals places n _ h)

theorem reading_of_notMem (h : '-' ∉ s) : reading s = magnitudeReading s := by
  unfold reading
  split
  · exact absurd List.mem_cons_self h
  · rfl

end SalesExplorer.Figure
