import Mathlib.Data.List.DropRight
import Mathlib.Tactic.Common
import SalesExplorer.Text.Blank

/-!
# Trimming

A text is trimmed if it neither begins nor ends with a blank. Trimming gives a trimmed text
(`trimmed_trim`) and changes no other one (`trim_eq_self_iff`), so trimming again changes nothing
(`trim_trim`).
-/

namespace SalesExplorer.Text

/-- No blank at either end. -/
structure Trimmed (s : List Char) : Prop where
  head : ∀ c, s.head? = some c → isBlank c = false
  last : ∀ c, s.getLast? = some c → isBlank c = false

theorem trim_eq (s : List Char) : trim s = (s.dropWhile isBlank).rdropWhile isBlank := rfl

theorem trimmed_trim (s : List Char) : Trimmed (trim s) := by
  refine ⟨fun c hc => ?_, fun c hc => ?_⟩
  · -- What is left has the first character of what the left end was cleared of.
    have hhead : (s.dropWhile isBlank).head? = some c := by
      obtain ⟨rest, hrest⟩ := List.rdropWhile_prefix isBlank (s.dropWhile isBlank)
      rw [← trim_eq] at hrest
      rw [← hrest, List.head?_append, hc]
      rfl
    have := List.head?_dropWhile_not isBlank s
    rw [hhead] at this
    exact this
  · have hne : (s.dropWhile isBlank).rdropWhile isBlank ≠ [] := fun h => by
      rw [trim_eq, h] at hc
      exact nomatch hc
    have := List.rdropWhile_last_not isBlank (s.dropWhile isBlank) hne
    rw [trim_eq, List.getLast?_eq_some_getLast hne, Option.some_inj] at hc
    rw [← hc]
    simpa using this

theorem trim_eq_self_iff {s : List Char} : trim s = s ↔ Trimmed s := by
  constructor
  · intro h
    exact h ▸ trimmed_trim s
  · intro h
    have hleft : s.dropWhile isBlank = s := by
      cases s with
      | nil => rfl
      | cons c rest => exact List.dropWhile_cons_of_neg (by simp [h.head c rfl])
    rw [trim_eq, hleft, List.rdropWhile_eq_self_iff]
    intro hne
    simp [h.last _ (List.getLast?_eq_some_getLast hne)]

theorem trim_trim (s : List Char) : trim (trim s) = trim s :=
  trim_eq_self_iff.2 (trimmed_trim s)

theorem trimmed_of_forall {s : List Char} (h : ∀ c ∈ s, isBlank c = false) : Trimmed s :=
  ⟨fun c hc => h c (List.mem_of_mem_head? hc), fun c hc => h c (List.mem_of_mem_getLast? hc)⟩

end SalesExplorer.Text

namespace String

theorem toList_trimBlank (s : String) : s.trimBlank.toList = SalesExplorer.Text.trim s.toList :=
  toList_ofList

@[simp] theorem trimBlank_trimBlank (s : String) : s.trimBlank.trimBlank = s.trimBlank := by
  rw [trimBlank, toList_trimBlank, SalesExplorer.Text.trim_trim, ← toList_trimBlank, ofList_toList]

theorem trimBlank_eq_self_iff {s : String} :
    s.trimBlank = s ↔ SalesExplorer.Text.Trimmed s.toList := by
  rw [← SalesExplorer.Text.trim_eq_self_iff, ← toList_trimBlank, toList_inj]

end String
