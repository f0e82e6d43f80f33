import Mathlib.Data.List.Sort
import Mathlib.Tactic.Common
import SalesExplorer.Proofs.Text.Pieces

/-!
# Maximal runs

A run is a stretch of a text without blanks. It is maximal if it has a blank or an end of the text
on either side (`MaximalRun`).

**Theorem (`exists_runsOf`).** The words of a text are its maximal runs from left to right. There is
only one list of them (`runsOf_iff_eq`).

A blank divides a text into two that have nothing to do with each other: the words of the whole are
those of its two sides (`words_append_cons`), and so are the maximal runs (`runAt_append_cons`). So
it is enough to know both for texts without blanks, which are one run or empty. By the same equation
a stretch of blanks can give way to any other one without a change to the words, as long as neither
is empty (`Respaced.words_eq`).
-/

namespace SalesExplorer.Text

variable {s t before run after : List Char} {c : Char} {start : Nat}

/-! ## Texts without blanks -/

/-- No blank anywhere. -/
def BlankFree (s : List Char) : Prop := ∀ c ∈ s, isBlank c = false

instance (s : List Char) : Decidable (BlankFree s) :=
  List.decidableBAll (fun c => isBlank c = false) s

theorem blankFree_append : BlankFree (s ++ t) ↔ BlankFree s ∧ BlankFree t :=
  List.forall_mem_append

theorem blankFree_cons : BlankFree (c :: s) ↔ isBlank c = false ∧ BlankFree s :=
  List.forall_mem_cons

theorem not_blankFree_iff : ¬BlankFree s ↔ ∃ c ∈ s, isBlank c = true := by
  simp [BlankFree]

theorem IsBlankRun.not_blankFree (h : IsBlankRun s) (hne : s ≠ []) : ¬BlankFree s := by
  obtain ⟨c, rest, rfl⟩ := List.exists_cons_of_ne_nil hne
  exact not_blankFree_iff.2 ⟨c, List.mem_cons_self, h c List.mem_cons_self⟩

theorem BlankFree.intercalate {parts : List (List Char)} (hs : BlankFree s)
    (hparts : ∀ part ∈ parts, BlankFree part) : BlankFree (s.intercalate parts) := by
  induction parts with
  | nil => exact fun _ hc => absurd hc List.not_mem_nil
  | cons part parts ih =>
    obtain ⟨hpart, hrest⟩ := List.forall_mem_cons.1 hparts
    cases parts with
    | nil => simpa using hpart
    | cons next parts =>
      rw [List.intercalate_cons_cons]
      exact blankFree_append.2 ⟨blankFree_append.2 ⟨hpart, hs⟩, ih hrest⟩

/-! ## Runs -/

/-- The text in the middle is a maximal run of the whole. -/
structure MaximalRun (before run after : List Char) : Prop where
  ne_nil : run ≠ []
  blankFree : BlankFree run
  left : ∀ c, before.getLast? = some c → isBlank c = true
  right : ∀ c, after.head? = some c → isBlank c = true

/-- A maximal run of the text, and how many characters stand before it. -/
def RunAt (s : List Char) (start : Nat) (run : List Char) : Prop :=
  ∃ before after, s = before ++ run ++ after ∧ before.length = start ∧ MaximalRun before run after

/-- All maximal runs of the text with their places, from left to right. -/
structure RunsOf (s : List Char) (runs : List (Nat × List Char)) : Prop where
  mem_iff : ∀ start run, (start, run) ∈ runs ↔ RunAt s start run
  inOrder : runs.Pairwise fun r r' => r.1 < r'.1

theorem RunAt.blankFree (h : RunAt s start run) : BlankFree run := by
  obtain ⟨before, after, -, -, h⟩ := h
  exact h.blankFree

theorem RunAt.le_length (h : RunAt s start run) : start ≤ s.length := by
  obtain ⟨before, after, rfl, rfl, -⟩ := h
  simp only [List.length_append]
  omega

theorem BlankFree.runAt_iff (h : BlankFree s) : RunAt s start run ↔ s ≠ [] ∧ start = 0 ∧ run = s := by
  constructor
  · rintro ⟨before, after, rfl, rfl, hrun⟩
    obtain ⟨hfront, hafter⟩ := blankFree_append.1 h
    have hbefore := (blankFree_append.1 hfront).1
    -- What stands beside the run would end or begin with a blank.
    have hnil : before = [] := by
      rw [← List.getLast?_eq_none_iff, Option.eq_none_iff_forall_ne_some]
      intro c hc
      simpa [hbefore c (List.mem_of_getLast? hc)] using hrun.left c hc
    have hnil' : after = [] := by
      rw [← List.head?_eq_none_iff, Option.eq_none_iff_forall_ne_some]
      intro c hc
      simpa [hafter c (List.mem_of_head? hc)] using hrun.right c hc
    simp [hnil, hnil', hrun.ne_nil]
  · rintro ⟨hne, rfl, rfl⟩
    exact ⟨[], [], by simp, rfl, hne, h, by simp, by simp⟩

/-! A run of one of two texts stays maximal where a blank stands between them, and is one of that
text alone. -/

theorem MaximalRun.append_right (h : MaximalRun before run after) (hc : isBlank c = true)
    (t : List Char) : MaximalRun before run (after ++ c :: t) where
  ne_nil := h.ne_nil
  blankFree := h.blankFree
  left := h.left
  right d hd := by
    cases after with
    | nil => exact Option.some.inj hd ▸ hc
    | cons _ _ => exact h.right d hd

theorem MaximalRun.append_left (h : MaximalRun before run after) (hc : isBlank c = true)
    (s : List Char) : MaximalRun (s ++ c :: before) run after where
  ne_nil := h.ne_nil
  blankFree := h.blankFree
  left d hd := by
    rw [List.append_cons, List.getLast?_append, List.getLast?_concat] at hd
    cases hlast : before.getLast? with
    | none =>
      rw [hlast] at hd
      exact Option.some.inj hd ▸ hc
    | some e =>
      rw [hlast] at hd
      exact h.left d (hlast.trans hd)
  right := h.right

theorem MaximalRun.of_append_right (h : MaximalRun before run (after ++ t)) :
    MaximalRun before run after :=
  ⟨h.ne_nil, h.blankFree, h.left, fun d hd => h.right d (by simp [List.head?_append, hd])⟩

theorem MaximalRun.of_append_left (h : MaximalRun (s ++ before) run after) :
    MaximalRun before run after :=
  ⟨h.ne_nil, h.blankFree, fun d hd => h.left d (by simp [List.getLast?_append, hd]), h.right⟩

theorem MaximalRun.notMem (h : MaximalRun before run after) (hc : isBlank c = true) : c ∉ run :=
  fun hmem => by simp [h.blankFree c hmem] at hc

/-- A maximal run is in one side of a blank or in the other. -/
theorem MaximalRun.cases_append_cons (h : MaximalRun before run after) (hc : isBlank c = true)
    (heq : s ++ c :: t = before ++ run ++ after) :
    (∃ right, s = before ++ run ++ right ∧ after = right ++ c :: t) ∨
      ∃ left, before = s ++ c :: left ∧ t = left ++ run ++ after := by
  have hnotMem := h.notMem hc
  rw [List.append_assoc, List.append_eq_append_iff] at heq
  rcases heq with ⟨skipped, rfl, heq⟩ | ⟨rest, rfl, heq⟩
  · -- It begins after the first side, and not with the blank.
    rcases List.cons_eq_append_iff.1 heq with ⟨-, hhead⟩ | ⟨left, rfl, rfl⟩
    · obtain ⟨d, run, rfl⟩ := List.exists_cons_of_ne_nil h.ne_nil
      obtain ⟨rfl, -⟩ := List.cons.inj hhead
      exact absurd List.mem_cons_self hnotMem
    · exact .inr ⟨left, rfl, by simp⟩
  · -- It begins in the first side and ends there, since it would go on with the blank.
    rcases List.append_eq_append_iff.1 heq with ⟨right, rfl, rfl⟩ | ⟨tail, rfl, htail⟩
    · exact .inl ⟨right, by simp, rfl⟩
    · rcases List.cons_eq_append_iff.1 htail with ⟨rfl, rfl⟩ | ⟨tail, rfl, -⟩
      · exact .inl ⟨[], by simp, rfl⟩
      · exact absurd (by simp) hnotMem

/-- A blank divides the runs of a text. -/
theorem runAt_append_cons (hc : isBlank c = true) : RunAt (s ++ c :: t) start run ↔
    RunAt s start run ∨ ∃ place, start = s.length + 1 + place ∧ RunAt t place run := by
  constructor
  · rintro ⟨before, after, heq, rfl, h⟩
    rcases h.cases_append_cons hc heq with ⟨right, hs, rfl⟩ | ⟨left, rfl, ht⟩
    · exact .inl ⟨before, right, hs, rfl, h.of_append_right⟩
    · rw [List.append_cons] at h
      exact .inr ⟨left.length, by simp; omega, left, after, ht, rfl, h.of_append_left⟩
  · rintro (⟨before, after, rfl, rfl, h⟩ | ⟨_, rfl, before, after, rfl, rfl, h⟩)
    · exact ⟨before, after ++ c :: t, by simp, rfl, h.append_right hc t⟩
    · exact ⟨s ++ c :: before, after, by simp, by simp; omega, h.append_left hc s⟩

theorem RunsOf.append_cons {runs runs' : List (Nat × List Char)} (hc : isBlank c = true)
    (hs : RunsOf s runs) (ht : RunsOf t runs') :
    RunsOf (s ++ c :: t) (runs ++ runs'.map fun r => (s.length + 1 + r.1, r.2)) where
  mem_iff start run := by
    rw [runAt_append_cons hc, List.mem_append, hs.mem_iff]
    simp [← ht.mem_iff, eq_comm, and_comm]
  inOrder := by
    refine List.pairwise_append.2 ⟨hs.inOrder, ?_, ?_⟩
    · exact List.pairwise_map.2 (ht.inOrder.imp fun h => by simpa using h)
    · rintro ⟨start, run⟩ hmem r hr
      obtain ⟨r', -, rfl⟩ := List.mem_map.1 hr
      have hle := ((hs.mem_iff start run).1 hmem).le_length
      show start < s.length + 1 + r'.1
      omega

theorem BlankFree.runsOf (h : BlankFree s) : RunsOf s (if s = [] then [] else [(0, s)]) where
  mem_iff start run := by
    rw [h.runAt_iff]
    split <;> simp_all
  inOrder := by split <;> simp

/-- There is only one list of the maximal runs. -/
theorem RunsOf.unique {runs runs' : List (Nat × List Char)} (h : RunsOf s runs)
    (h' : RunsOf s runs') : runs = runs' := by
  have hirrefl : Std.Irrefl fun r r' : Nat × List Char => r.1 < r'.1 := ⟨fun r => Nat.lt_irrefl r.1⟩
  have hantisymm : Std.Antisymm fun r r' : Nat × List Char => r.1 < r'.1 :=
    ⟨fun _ _ hlt hgt => absurd hgt (Nat.lt_asymm hlt)⟩
  refine List.Pairwise.eq_of_mem_iff h.inOrder h'.inOrder ?_
  rintro ⟨start, run⟩
  rw [h.mem_iff, h'.mem_iff]

theorem runsOf_iff_eq {runs other : List (Nat × List Char)} (h : RunsOf s runs) :
    RunsOf s other ↔ other = runs :=
  ⟨fun h' => h'.unique h, fun heq => heq ▸ h⟩

/-! ## Words -/

/-- A blank divides the words of a text. -/
theorem words_append_cons (hc : isBlank c = true) (s t : List Char) :
    words (s ++ c :: t) = words s ++ words t := by
  rw [words, List.splitOnP_append_cons s t hc, List.filter_append, words, words]

theorem BlankFree.words_eq (h : BlankFree s) : words s = if s = [] then [] else [s] := by
  rw [words, List.splitOnP_eq_singleton h]
  split <;> simp_all

/-- **The words of a text are its maximal runs**, from left to right. -/
theorem exists_runsOf (s : List Char) : ∃ runs, RunsOf s runs ∧ runs.map Prod.snd = words s := by
  -- By any blank: both sides of it are shorter.
  induction hlen : s.length using Nat.strongRecOn generalizing s with
  | ind n ih =>
    by_cases hs : BlankFree s
    · refine ⟨_, hs.runsOf, ?_⟩
      rw [hs.words_eq]
      split <;> rfl
    · obtain ⟨c, hmem, hc⟩ := not_blankFree_iff.1 hs
      obtain ⟨left, right, rfl⟩ := List.append_of_mem hmem
      rw [List.length_append, List.length_cons] at hlen
      obtain ⟨runs, hruns, hwords⟩ := ih left.length (by omega) left rfl
      obtain ⟨runs', hruns', hwords'⟩ := ih right.length (by omega) right rfl
      refine ⟨_, hruns.append_cons hc hruns', ?_⟩
      rw [List.map_append, List.map_map, words_append_cons hc, hwords, ← hwords']
      rfl

theorem blankFree_of_mem_words {word : List Char} (h : word ∈ words s) : BlankFree word := by
  obtain ⟨runs, hruns, hwords⟩ := exists_runsOf s
  rw [← hwords] at h
  obtain ⟨⟨start, run⟩, hmem, rfl⟩ := List.mem_map.1 h
  exact ((hruns.mem_iff start run).1 hmem).blankFree

theorem words_blanks_append {gap : List Char} (hgap : IsBlankRun gap) (t : List Char) :
    words (gap ++ t) = words t := by
  induction gap with
  | nil => rfl
  | cons c gap ih =>
    obtain ⟨hc, hrest⟩ := List.forall_mem_cons.1 hgap
    calc words (c :: gap ++ t) = words [] ++ words (gap ++ t) := words_append_cons hc [] (gap ++ t)
      _ = words t := ih hrest

/-- A stretch of blanks divides the words as one blank does. -/
theorem words_append_blanks {gap : List Char} (hgap : IsBlankRun gap) (hne : gap ≠ [])
    (s t : List Char) : words (s ++ (gap ++ t)) = words s ++ words t := by
  obtain ⟨c, gap, rfl⟩ := List.exists_cons_of_ne_nil hne
  obtain ⟨hc, hrest⟩ := List.forall_mem_cons.1 hgap
  rw [List.cons_append, words_append_cons hc, words_blanks_append hrest]

/-! ## Other white space -/

/-- The second text is the first one with white space replaced: stretches of blanks have given way
to others, and none of them is empty. -/
inductive Respaced : List Char → List Char → Prop
  | nil : Respaced [] []
  | keep (c : Char) {s t : List Char} (hrest : Respaced s t) : Respaced (c :: s) (c :: t)
  | replace {gap gap' s t : List Char} (hgap : IsBlankRun gap) (hgap' : IsBlankRun gap')
      (hne : gap ≠ []) (hne' : gap' ≠ []) (hrest : Respaced s t) : Respaced (gap ++ s) (gap' ++ t)

theorem Respaced.refl (s : List Char) : Respaced s s := by
  induction s with
  | nil => exact .nil
  | cons c s ih => exact .keep c ih

theorem Respaced.append_left (h : Respaced s t) (front : List Char) :
    Respaced (front ++ s) (front ++ t) := by
  induction front with
  | nil => exact h
  | cons c front ih => exact .keep c ih

theorem Respaced.words_append (h : Respaced s t) (front : List Char) :
    words (front ++ s) = words (front ++ t) := by
  -- With what stands before the two: a word may go on over the characters that were kept.
  induction h generalizing front with
  | nil => rfl
  | keep c _ ih =>
    rw [List.append_cons, ih, ← List.append_cons]
  | replace hgap hgap' hne hne' _ ih =>
    rw [words_append_blanks hgap hne, words_append_blanks hgap' hne']
    exact congrArg _ (ih [])

/-- Other white space leaves the words as they are. -/
theorem Respaced.words_eq (h : Respaced s t) : words s = words t := h.words_append []

/-- Where something was replaced, there are blanks before and after. -/
theorem Respaced.eq_or_not_blankFree (h : Respaced s t) :
    s = t ∨ ¬BlankFree s ∧ ¬BlankFree t := by
  induction h with
  | nil => exact .inl rfl
  | keep c _ ih =>
    refine ih.imp (fun heq => by rw [heq]) ?_
    rintro ⟨hs, ht⟩
    exact ⟨fun h => hs (blankFree_cons.1 h).2, fun h => ht (blankFree_cons.1 h).2⟩
  | replace hgap hgap' hne hne' _ _ =>
    exact .inr ⟨fun h => hgap.not_blankFree hne (blankFree_append.1 h).1,
      fun h => hgap'.not_blankFree hne' (blankFree_append.1 h).1⟩

end SalesExplorer.Text
