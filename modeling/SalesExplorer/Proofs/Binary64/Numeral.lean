import Mathlib.Data.List.TakeWhile
import SalesExplorer.Proofs.Binary64.Overflow
import SalesExplorer.Proofs.Text.Digits

/-!
# Texts that write a number

The grammar of numbers that arrive as text, as relations: a sign (`Signed`), then digits with an
optional point and an exponent (`WritesMagnitude`) or a name (`IsName`).

**Theorem (`ofNumeral?_eq_some_iff`).** A text is read as a number exactly if it is derived in this
grammar, and as the number that the derivation tells.

A text is read from left to right, digits as far as they go. So nothing that may follow digits in a
derivation is a digit (`span_isDigit`), and what begins like a numeral is no name.
-/

namespace SalesExplorer.Binary64

/-! ## Grammar -/

/-- The sign of a text, and what stands behind it. -/
inductive Signed : List Char → Bool → List Char → Prop
  | minus (body : List Char) : Signed ('-' :: body) true body
  | plus (body : List Char) : Signed ('+' :: body) false body
  | bare {body : List Char} : body.head? ≠ some '-' → body.head? ≠ some '+' →
      Signed body false body

/-- At least one digit, and nothing else. -/
def AllDigits (ds : List Char) : Prop := ds ≠ [] ∧ ∀ c ∈ ds, isDigit c = true

/-- An exponent part: the mark, an optional sign, digits. -/
inductive WritesExponent : List Char → ℤ → Prop
  | absent : WritesExponent [] 0
  | present {mark : Char} {s ds : List Char} {negative : Bool} : mark = 'e' ∨ mark = 'E' →
      Signed s negative ds → AllDigits ds →
      WritesExponent (mark :: s) (if negative then -(ofDigits ds : ℤ) else ofDigits ds)

/-- A numeral without its sign, worth `digits · 10 ^ scale`. -/
inductive WritesMagnitude : List Char → ℕ → ℤ → Prop
  | whole {whole rest : List Char} {e : ℤ} : AllDigits whole → WritesExponent rest e →
      WritesMagnitude (whole ++ rest) (ofDigits whole) e
  | point {whole fraction rest : List Char} {e : ℤ} : AllDigits (whole ++ fraction) →
      WritesExponent rest e →
      WritesMagnitude (whole ++ '.' :: (fraction ++ rest)) (ofDigits (whole ++ fraction))
        (e - fraction.length)

/-- The name of a number that is not finite, in any case of its letters. -/
def IsName (s : List Char) : Prop :=
  String.ofList (s.map Char.toLower) ∈ ["inf", "infinity", "nan"]

variable {s body rest ds : List Char} {negative : Bool} {e : ℤ} {x : Binary64}

/-! ## Signs -/

/-- A text without its sign, and whether that is a minus. -/
def splitSign (s : List Char) : Bool × List Char := match s with
  | '-' :: body => (true, body)
  | '+' :: body => (false, body)
  | body => (false, body)

theorem splitSign_eq_iff : splitSign s = (negative, body) ↔ Signed s negative body := by
  constructor
  · intro h
    unfold splitSign at h
    split at h
    · cases h
      exact .minus _
    · cases h
      exact .plus _
    · rename_i hminus hplus
      cases h
      refine .bare ?_ ?_
      · intro hhead
        obtain ⟨t, rfl⟩ := List.head?_eq_some_iff.1 hhead
        exact hminus t rfl
      · intro hhead
        obtain ⟨t, rfl⟩ := List.head?_eq_some_iff.1 hhead
        exact hplus t rfl
  · intro h
    cases h with
    | minus => rfl
    | plus => rfl
    | bare hminus hplus =>
      unfold splitSign
      split
      · exact absurd rfl hminus
      · exact absurd rfl hplus
      · rfl

/-! ## Digits -/

/-- No digit stands at the front. -/
def EndsDigits (s : List Char) : Prop := ∀ c, s.head? = some c → isDigit c = false

theorem span_isDigit (hds : ∀ c ∈ ds, isDigit c = true) (hrest : EndsDigits rest) :
    (ds ++ rest).takeWhile isDigit = ds ∧ (ds ++ rest).dropWhile isDigit = rest := by
  rw [List.takeWhile_append_of_pos hds, List.dropWhile_append_of_pos hds]
  cases rest with
  | nil => simp
  | cons c t => simp [hrest c rfl]

theorem exists_span (s : List Char) :
    ∃ ds rest, s = ds ++ rest ∧ (∀ c ∈ ds, isDigit c = true) ∧ EndsDigits rest := by
  refine ⟨_, _, (List.takeWhile_append_dropWhile (p := isDigit)).symm, ?_, ?_⟩
  · intro c hc
    exact List.mem_takeWhile_imp hc
  · intro c hc
    have hhead := List.head?_dropWhile_not isDigit s
    rw [hc] at hhead
    exact hhead

theorem allDigits_iff : (ds.isEmpty || !ds.all isDigit) = false ↔ AllDigits ds := by
  simp [AllDigits]

/-! ## Exponents -/

theorem exponentPart?_cons (c : Char) (s : List Char) : exponentPart? (c :: s) =
    if c = 'e' ∨ c = 'E' then
      if (splitSign s).2.isEmpty || !(splitSign s).2.all isDigit then none
      else some (if (splitSign s).1 then -(ofDigits (splitSign s).2 : ℤ)
        else ofDigits (splitSign s).2)
    else none := rfl

theorem exponentPart?_eq_some_iff : exponentPart? s = some e ↔ WritesExponent s e := by
  constructor
  · intro h
    cases s with
    | nil =>
      cases h
      exact .absent
    | cons c s =>
      rw [exponentPart?_cons] at h
      split at h
      · rename_i hmark
        split at h
        · cases h
        · rename_i hds
          cases h
          exact .present hmark (splitSign_eq_iff.1 rfl) (allDigits_iff.1 (eq_false_of_ne_true hds))
      · cases h
  · intro h
    cases h with
    | absent => rfl
    | present hmark hsign hds =>
      rw [exponentPart?_cons, if_pos hmark, splitSign_eq_iff.2 hsign, allDigits_iff.2 hds]
      rfl

theorem WritesExponent.head (h : WritesExponent s e) {c : Char} (hc : s.head? = some c) :
    c = 'e' ∨ c = 'E' := by
  cases h with
  | absent => exact nomatch hc
  | present hmark =>
    cases hc
    exact hmark

theorem WritesExponent.endsDigits (h : WritesExponent s e) : EndsDigits s := by
  intro c hc
  rcases h.head hc with rfl | rfl <;> rfl

/-! ## Magnitudes -/

theorem magnitude?_append (negative : Bool) (hds : ∀ c ∈ ds, isDigit c = true)
    (hrest : EndsDigits rest) (hpoint : rest.head? ≠ some '.') :
    magnitude? negative (ds ++ rest) =
      if ds.isEmpty then none else (exponentPart? rest).map (ofDecimal negative (ofDigits ds)) := by
  obtain ⟨htake, hdrop⟩ := span_isDigit hds hrest
  unfold magnitude?
  rw [htake, hdrop]
  dsimp only
  split
  · exact absurd rfl hpoint
  · simp

theorem magnitude?_append_point (negative : Bool) {fraction : List Char}
    (hds : ∀ c ∈ ds ++ fraction, isDigit c = true) (hrest : EndsDigits rest) :
    magnitude? negative (ds ++ '.' :: (fraction ++ rest)) =
      if (ds ++ fraction).isEmpty then none
      else (exponentPart? rest).map fun e =>
        ofDecimal negative (ofDigits (ds ++ fraction)) (e - fraction.length) := by
  obtain ⟨hwhole, hfraction⟩ := List.forall_mem_append.1 hds
  have hpoint : EndsDigits ('.' :: (fraction ++ rest)) := by
    intro c hc
    cases hc
    rfl
  obtain ⟨htake, hdrop⟩ := span_isDigit hwhole hpoint
  obtain ⟨htake', hdrop'⟩ := span_isDigit hfraction hrest
  unfold magnitude?
  rw [htake, hdrop]
  simp only [htake', hdrop', Bool.and_eq_true, List.isEmpty_iff, List.append_eq_nil_iff]

/-- **Magnitudes are read by the grammar.** -/
theorem magnitude?_eq_some_iff : magnitude? negative s = some x ↔
    ∃ digits scale, WritesMagnitude s digits scale ∧ ofDecimal negative digits scale = x := by
  constructor
  · intro h
    obtain ⟨ds, rest, rfl, hds, hrest⟩ := exists_span s
    by_cases hpoint : rest.head? = some '.'
    · obtain ⟨t, rfl⟩ := List.head?_eq_some_iff.1 hpoint
      obtain ⟨fraction, rest, rfl, hfraction, hrest⟩ := exists_span t
      have hall := List.forall_mem_append.2 ⟨hds, hfraction⟩
      rw [magnitude?_append_point negative hall hrest] at h
      split at h
      · cases h
      · rename_i hne
        obtain ⟨e, he, rfl⟩ := Option.map_eq_some_iff.1 h
        exact ⟨_, _, .point ⟨by simpa using hne, hall⟩ (exponentPart?_eq_some_iff.1 he), rfl⟩
    · rw [magnitude?_append negative hds hrest hpoint] at h
      split at h
      · cases h
      · rename_i hne
        obtain ⟨e, he, rfl⟩ := Option.map_eq_some_iff.1 h
        exact ⟨_, _, .whole ⟨by simpa using hne, hds⟩ (exponentPart?_eq_some_iff.1 he), rfl⟩
  · rintro ⟨digits, scale, h, rfl⟩
    cases h with
    | @whole _ rest _ hds he =>
      have hpoint : rest.head? ≠ some '.' := by
        intro hc
        rcases he.head hc with heq | heq <;> exact absurd heq (by decide)
      rw [magnitude?_append negative hds.2 he.endsDigits hpoint, exponentPart?_eq_some_iff.2 he]
      simp [hds.1]
    | point hds he =>
      rw [magnitude?_append_point negative hds.2 he.endsDigits, exponentPart?_eq_some_iff.2 he]
      simp [hds.1]

theorem WritesMagnitude.head {digits : ℕ} {scale : ℤ} (h : WritesMagnitude s digits scale) :
    ∃ c t, s = c :: t ∧ (isDigit c = true ∨ c = '.') := by
  cases h with
  | whole hds _ =>
    obtain ⟨c, t, rfl⟩ := List.exists_cons_of_ne_nil hds.1
    exact ⟨c, _, rfl, .inl (hds.2 c List.mem_cons_self)⟩
  | @point ds fraction rest _ hds _ =>
    cases ds with
    | nil => exact ⟨'.', _, rfl, .inr rfl⟩
    | cons c t => exact ⟨c, _, rfl, .inl (hds.2 c List.mem_cons_self)⟩

/-! ## Names -/

theorem named?_eq_none_iff : named? negative s = none ↔ ¬IsName s := by
  unfold named? IsName
  generalize String.ofList (s.map Char.toLower) = name
  simp only [List.mem_cons, List.not_mem_nil, or_false]
  split_ifs <;> simp <;> tauto

theorem finite?_of_named? (h : named? negative s = some x) : x.finite? = none := by
  unfold named? at h
  dsimp only at h
  split_ifs at h <;> cases h <;> rfl

theorem toLower_of_isDigit {c : Char} (h : isDigit c = true) : c.toLower = c := by
  obtain ⟨-, hhigh⟩ := isDigit_iff.1 h
  have hnot : ¬(c.val ≥ 'A'.val ∧ c.val ≤ 'Z'.val) := by
    rintro ⟨hlow, -⟩
    have : 65 ≤ c.toNat := hlow
    omega
  exact dif_neg hnot

theorem IsName.head {c : Char} (h : IsName (c :: s)) : c.toLower = 'i' ∨ c.toLower = 'n' := by
  have hhead {name : String} (h : String.ofList ((c :: s).map Char.toLower) = name) :
      some c.toLower = name.toList.head? := by
    rw [← h, String.toList_ofList]
    rfl
  simp only [IsName, List.mem_cons, List.not_mem_nil, or_false] at h
  rcases h with h | h | h
  · exact .inl (Option.some.inj (hhead h))
  · exact .inl (Option.some.inj (hhead h))
  · exact .inr (Option.some.inj (hhead h))

/-- What begins like a numeral is no name. -/
theorem WritesMagnitude.not_isName {digits : ℕ} {scale : ℤ} (h : WritesMagnitude s digits scale) :
    ¬IsName s := by
  intro hname
  obtain ⟨c, t, rfl, hc⟩ := h.head
  have hfixed : c.toLower = c := by
    rcases hc with hdigit | rfl
    · exact toLower_of_isDigit hdigit
    · rfl
  rcases hname.head with hi | hn
  · rw [hfixed] at hi
    subst hi
    exact absurd hc (by decide)
  · rw [hfixed] at hn
    subst hn
    exact absurd hc (by decide)

/-! ## Numbers -/

theorem ofNumeral?_eq (s : List Char) : ofNumeral? s =
    (named? (splitSign s).1 (splitSign s).2).or
      (magnitude? (splitSign s).1 (splitSign s).2) := rfl

/-- **Numbers are read by the grammar.** -/
theorem ofNumeral?_eq_some_iff : ofNumeral? s = some x ↔ ∃ negative body, Signed s negative body ∧
    (named? negative body = some x ∨
      ∃ digits scale, WritesMagnitude body digits scale ∧
        ofDecimal negative digits scale = x) := by
  rw [ofNumeral?_eq, Option.or_eq_some_iff]
  constructor
  · rintro (hname | ⟨-, hmagnitude⟩)
    · exact ⟨_, _, splitSign_eq_iff.1 rfl, .inl hname⟩
    · exact ⟨_, _, splitSign_eq_iff.1 rfl, .inr (magnitude?_eq_some_iff.1 hmagnitude)⟩
  · rintro ⟨negative, body, hsign, h⟩
    rw [splitSign_eq_iff.2 hsign]
    rcases h with hname | ⟨digits, scale, hwrites, hx⟩
    · exact .inl hname
    · exact .inr ⟨named?_eq_none_iff.2 hwrites.not_isName,
        magnitude?_eq_some_iff.2 ⟨digits, scale, hwrites, hx⟩⟩

end SalesExplorer.Binary64
