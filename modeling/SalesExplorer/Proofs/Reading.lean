import Mathlib.Data.List.Forall2
import Mathlib.Tactic.Common

/-!
# Reading that can fail

A reader either gives a value or tells what is wrong. These are the conditions under which reading
in steps, and reading all entries of a list, gives a value, and what is told otherwise: the first
thing that is wrong (`IsFirst`).
-/

namespace SalesExplorer

variable {α β ε : Type} {f : α → Except ε β}

theorem bind_eq_ok_iff {x : Except ε α} {b : β} :
    (x >>= f) = .ok b ↔ ∃ a, x = .ok a ∧ f a = .ok b := by
  cases x <;> simp [bind, Except.bind]

theorem mapM_cons_eq_ok_iff {a : α} {l : List α} {found : List β} :
    (a :: l).mapM f = .ok found ↔ ∃ b bs, f a = .ok b ∧ l.mapM f = .ok bs ∧ b :: bs = found := by
  rw [List.mapM_cons, bind_eq_ok_iff]
  simp only [bind_eq_ok_iff, pure, Except.pure, Except.ok.injEq, exists_and_left]

theorem mapM_eq_ok_iff {g : α → Option β} (hf : ∀ a b, f a = .ok b ↔ g a = some b) (l : List α)
    (found : List β) : l.mapM f = .ok found ↔ l.map g = found.map some := by
  induction l generalizing found with
  | nil => cases found <;> simp [pure, Except.pure]
  | cons a l ih =>
    rw [mapM_cons_eq_ok_iff, List.map_cons]
    constructor
    · rintro ⟨b, bs, hb, hbs, rfl⟩
      rw [(hf a b).1 hb, (ih bs).1 hbs]
      rfl
    · intro h
      cases found with
      | nil => exact nomatch h
      | cons b bs =>
        obtain ⟨hb, hbs⟩ := List.cons.inj h
        exact ⟨b, bs, (hf a b).2 hb, (ih bs).2 hbs, rfl⟩

theorem mapM_eq_ok_iff_forall₂ {l : List α} {found : List β} :
    l.mapM f = .ok found ↔ List.Forall₂ (fun a b => f a = .ok b) l found := by
  induction l generalizing found with
  | nil => cases found <;> simp [pure, Except.pure]
  | cons a l ih =>
    rw [mapM_cons_eq_ok_iff, List.forall₂_cons_left_iff]
    simp only [ih, exists_and_left, eq_comm (a := found)]

theorem exists_mapM_eq_ok_iff {l : List α} :
    (∃ found, l.mapM f = .ok found) ↔ ∀ a ∈ l, ∃ b, f a = .ok b := by
  induction l with
  | nil => simp [pure, Except.pure]
  | cons a l ih =>
    simp only [mapM_cons_eq_ok_iff, List.forall_mem_cons, ← ih]
    constructor
    · rintro ⟨-, b, bs, hb, hbs, -⟩
      exact ⟨⟨b, hb⟩, bs, hbs⟩
    · rintro ⟨⟨b, hb⟩, bs, hbs⟩
      exact ⟨_, b, bs, hb, hbs, rfl⟩

theorem mapM_check_eq_ok_iff {check : α → Except ε Unit} (l found : List α) :
    (l.mapM fun a => do check a; return a) = .ok found ↔
      found = l ∧ ∀ a ∈ l, check a = .ok () := by
  induction l generalizing found with
  | nil => simp [pure, Except.pure, eq_comm]
  | cons a l ih =>
    rw [mapM_cons_eq_ok_iff, List.forall_mem_cons]
    constructor
    · rintro ⟨b, bs, hb, hbs, rfl⟩
      obtain ⟨⟨⟩, ha, hab⟩ := bind_eq_ok_iff.1 hb
      obtain ⟨rfl, hl⟩ := (ih bs).1 hbs
      cases hab
      exact ⟨rfl, ha, hl⟩
    · rintro ⟨rfl, ha, hl⟩
      exact ⟨a, l, bind_eq_ok_iff.2 ⟨(), ha, rfl⟩, (ih l).2 ⟨rfl, hl⟩, rfl⟩

/-! ## The first thing that is wrong -/

/-- The entry is the first of the list with a property. -/
inductive IsFirst (p : α → Prop) : List α → α → Prop
  | head {a : α} {l : List α} : p a → IsFirst p (a :: l) a
  | tail {a b : α} {l : List α} : ¬p b → IsFirst p l a → IsFirst p (b :: l) a

variable {p : α → Prop} {a b : α} {l : List α}

theorem not_isFirst_nil : ¬IsFirst p [] a := by
  intro h
  cases h

theorem isFirst_cons_iff : IsFirst p (b :: l) a ↔ p b ∧ a = b ∨ ¬p b ∧ IsFirst p l a := by
  constructor
  · rintro (hb | ⟨hb, h⟩)
    · exact .inl ⟨hb, rfl⟩
    · exact .inr ⟨hb, h⟩
  · rintro (⟨hb, rfl⟩ | ⟨hb, h⟩)
    · exact .head hb
    · exact .tail hb h

theorem IsFirst.mem (h : IsFirst p l a) : a ∈ l := by
  induction h with
  | head => exact List.mem_cons_self
  | tail _ _ ih => exact List.mem_cons_of_mem _ ih

theorem IsFirst.prop (h : IsFirst p l a) : p a := by
  induction h with
  | head ha => exact ha
  | tail _ _ ih => exact ih

theorem isFirst_filterMap_iff {g : α → Option β} {q : β → Prop} {c : β} :
    IsFirst q (l.filterMap g) c ↔
      ∃ a, IsFirst (fun a => ∃ b, g a = some b ∧ q b) l a ∧ g a = some c := by
  induction l with
  | nil => simp [not_isFirst_nil]
  | cons a l ih =>
    simp only [isFirst_cons_iff]
    cases ha : g a with
    | none =>
      rw [List.filterMap_cons_none ha, ih]
      simp
    | some b =>
      rw [List.filterMap_cons_some ha, isFirst_cons_iff, ih]
      by_cases hb : q b
      · simp [ha, hb, eq_comm]
      · simp [hb]

theorem findSome?_eq_some_iff_isFirst {g : α → Option β} {c : β} :
    l.findSome? g = some c ↔ ∃ a, IsFirst (fun a => g a ≠ none) l a ∧ g a = some c := by
  induction l with
  | nil => simp [not_isFirst_nil]
  | cons a l ih =>
    simp only [isFirst_cons_iff]
    cases ha : g a with
    | none =>
      rw [List.findSome?_cons_of_isNone (by rw [ha]; rfl), ih]
      simp
    | some b =>
      rw [List.findSome?_cons_of_isSome (by rw [ha]; rfl)]
      simp [ha]

theorem exists_ok_iff {x : Except ε α} : (∃ a, x = .ok a) ↔ ¬∃ e, x = .error e := by
  cases x <;> simp

theorem bind_eq_error_iff {x : Except ε α} {e : ε} :
    (x >>= f) = .error e ↔ x = .error e ∨ ∃ a, x = .ok a ∧ f a = .error e := by
  cases x <;> simp [bind, Except.bind]

/-! What is done with a value after it was read does not matter to whether it is read. -/

theorem bind_pure_eq_error_iff {x : Except ε α} {g : α → β} {e : ε} :
    (do let a ← x; return g a) = .error e ↔ x = .error e := by
  rw [bind_eq_error_iff]
  simp [pure, Except.pure]

theorem exists_bind_pure_eq_ok_iff {x : Except ε α} {g : α → β} :
    (∃ b, (do let a ← x; return g a) = .ok b) ↔ ∃ a, x = .ok a := by
  rw [exists_ok_iff, exists_ok_iff]
  simp only [bind_pure_eq_error_iff]

/-- A list is refused for the first of its entries that is refused. -/
theorem mapM_eq_error_iff {e : ε} : l.mapM f = .error e ↔
    ∃ a, IsFirst (fun a => ∃ e, f a = .error e) l a ∧ f a = .error e := by
  induction l with
  | nil => simp [not_isFirst_nil, pure, Except.pure]
  | cons a l ih =>
    simp only [List.mapM_cons, bind_eq_error_iff, ih, isFirst_cons_iff]
    cases ha : f a with
    | ok b => simp [pure, Except.pure]
    | error e' => simp [ha]

/-- Where an entry is refused for having a property, in its own words. -/
theorem mapM_eq_error_iff_of {cause : α → ε} (hf : ∀ a e, f a = .error e ↔ p a ∧ e = cause a)
    {e : ε} : l.mapM f = .error e ↔ ∃ a, IsFirst p l a ∧ e = cause a := by
  simp only [mapM_eq_error_iff, hf, exists_and_left, exists_eq, and_true]
  constructor
  · rintro ⟨a, hfirst, -, he⟩
    exact ⟨a, hfirst, he⟩
  · rintro ⟨a, hfirst, he⟩
    exact ⟨a, hfirst, hfirst.prop, he⟩

end SalesExplorer
