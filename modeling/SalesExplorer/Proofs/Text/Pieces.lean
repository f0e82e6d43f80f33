import Mathlib.Tactic.Common
import SalesExplorer.Proofs.Text.Trim

/-!
# Texts that write a list

A text writes a list of items if the items stand in it in their order, with nothing but blanks and
commas before, between and after them, and at least one comma between two of them (`Writes`). An
item is not empty, has no comma in it and no blank at either end.

**Theorem (`pieces_eq_iff_writes`).** The pieces of a text are the items that it writes. So every
text writes exactly one list, and a list is written by its join with commas, however many blanks
and further commas are put around the items.

A gap in front of a text adds no piece, since each of its characters adds none
(`pieces_cons_of_gap`), and the first comma after an item ends its piece
(`pieces_item_append_gap`). In the other direction the text is divided at its first comma.
-/

namespace SalesExplorer.Text

variable {s t : List Char} {items : List (List Char)}

/-! ## Items and gaps -/

/-- What can stand between two commas as a piece of its own. -/
structure IsItem (s : List Char) : Prop where
  ne_nil : s ≠ []
  comma_notMem : ',' ∉ s
  trimmed : Trimmed s

/-- Nothing but blanks. -/
def IsBlankRun (s : List Char) : Prop := ∀ c ∈ s, isBlank c = true

instance (s : List Char) : Decidable (IsBlankRun s) :=
  List.decidableBAll (fun c => isBlank c = true) s

/-- Blanks and commas, in any number and order. -/
def IsGap (s : List Char) : Prop := ∀ c ∈ s, isBlank c = true ∨ c = ','

/-- A character that belongs to an item wherever it stands. -/
def isInk (c : Char) : Bool := !isBlank c && c != ','

/-- The text writes the items: gaps divide them, each gap between two items with a comma in it. -/
inductive Writes : List (List Char) → List Char → Prop
  | nothing {gap : List Char} (hgap : IsGap gap) : Writes [] gap
  | last {before item after : List Char} (hbefore : IsGap before) (hitem : IsItem item)
      (hafter : IsGap after) : Writes [item] (before ++ item ++ after)
  | next {before item between rest : List Char} {items : List (List Char)}
      (hbefore : IsGap before) (hitem : IsItem item) (hbetween : IsGap between)
      (hcomma : ',' ∈ between) (hrest : Writes items rest) :
      Writes (item :: items) (before ++ item ++ between ++ rest)

theorem IsBlankRun.isGap (h : IsBlankRun s) : IsGap s := fun c hc => .inl (h c hc)

theorem IsBlankRun.comma_notMem (h : IsBlankRun s) : ',' ∉ s := fun hc =>
  absurd (h ',' hc) (by decide)

theorem IsGap.append (hs : IsGap s) (ht : IsGap t) : IsGap (s ++ t) := fun c hc =>
  (List.mem_append.1 hc).elim (hs c) (ht c)

theorem isGap_comma : IsGap [','] := fun _ hc => .inr (List.mem_singleton.1 hc)

theorem isGap_nil : IsGap [] := fun _ hc => absurd hc List.not_mem_nil

/-- Up to its first comma a gap is blank. -/
theorem IsGap.exists_eq_comma (h : IsGap s) (hcomma : ',' ∈ s) :
    ∃ blanks rest, s = blanks ++ ',' :: rest ∧ IsBlankRun blanks ∧ IsGap rest := by
  obtain ⟨blanks, rest, rfl, hnotMem⟩ := List.eq_append_cons_of_mem hcomma
  refine ⟨blanks, rest, rfl, fun c hc => ?_, fun c hc => h c (by simp [hc])⟩
  exact (h c (by simp [hc])).resolve_right fun heq => hnotMem (heq ▸ hc)

/-! ## Trimming -/

theorem trim_eq_nil_iff : trim s = [] ↔ IsBlankRun s := by
  rw [trim_eq, List.rdropWhile_eq_nil_iff]
  constructor
  · intro h c hc
    rw [← List.takeWhile_append_dropWhile (p := isBlank) (l := s), List.mem_append] at hc
    exact hc.elim List.mem_takeWhile_imp (h c)
  · intro h c hc
    exact h c ((List.dropWhile_suffix isBlank).subset hc)

theorem exists_eq_append_trim (s : List Char) :
    ∃ before after, s = before ++ trim s ++ after ∧ IsBlankRun before ∧ IsBlankRun after := by
  refine ⟨s.takeWhile isBlank, (s.dropWhile isBlank).rtakeWhile isBlank, ?_,
    fun c hc => List.mem_takeWhile_imp hc, fun c hc => List.mem_rtakeWhile_imp hc⟩
  rw [trim_eq, List.append_assoc, List.rdropWhile_append_rtakeWhile,
    List.takeWhile_append_dropWhile]

theorem IsItem.trim_append (hs : IsItem s) (ht : IsBlankRun t) : trim (s ++ t) = s := by
  have hright : (s ++ t).rdropWhile isBlank = s.rdropWhile isBlank := by
    rw [List.rdropWhile, List.reverse_append,
      List.dropWhile_append_of_pos fun c hc => ht c (List.mem_reverse.1 hc), List.rdropWhile]
  have hself := trim_eq_self_iff.2 hs.trimmed
  obtain ⟨c, rest, rfl⟩ := List.exists_cons_of_ne_nil hs.ne_nil
  have hhead : ¬isBlank c = true := by simp [hs.trimmed.head c rfl]
  rw [trim_eq, List.dropWhile_cons_of_neg hhead] at hself
  rw [trim_eq, List.cons_append, List.dropWhile_cons_of_neg hhead, ← List.cons_append, hright, hself]

/-! ## Pieces -/

theorem pieces_append_comma (s t : List Char) : pieces (s ++ ',' :: t) = pieces s ++ pieces t := by
  rw [pieces, List.splitOn_append_cons_self, List.map_append, List.filter_append, pieces, pieces]

theorem pieces_of_notMem (h : ',' ∉ s) : pieces s = if trim s = [] then [] else [trim s] := by
  rw [pieces, List.splitOn_eq_singleton h, List.map_singleton, List.filter_singleton]
  cases trim s <;> rfl

theorem pieces_cons_of_gap {c : Char} (hc : isBlank c = true ∨ c = ',') (s : List Char) :
    pieces (c :: s) = pieces s := by
  by_cases hcomma : c = ','
  · rw [hcomma]
    exact pieces_append_comma [] s
  · have hblank := hc.resolve_right hcomma
    obtain ⟨piece, rest, hs⟩ := List.exists_cons_of_ne_nil (List.splitOn_ne_nil ',' s)
    have htrim : trim (c :: piece) = trim piece := by
      rw [trim_eq, List.dropWhile_cons_of_pos hblank, trim_eq]
    have hcons : (c :: s).splitOn ',' = (c :: piece) :: rest := by
      rw [List.splitOn_cons_eq_if_modifyHead, if_neg (by simpa using hcomma), hs]
      rfl
    rw [pieces, hcons, pieces, hs, List.map_cons, List.map_cons, htrim]

theorem pieces_gap_append (h : IsGap s) (t : List Char) : pieces (s ++ t) = pieces t := by
  induction s with
  | nil => rfl
  | cons c s ih =>
    rw [List.cons_append, pieces_cons_of_gap (h c List.mem_cons_self), ih fun c hc => h c (by simp [hc])]

theorem pieces_gap (h : IsGap s) : pieces s = [] := by
  rw [← List.append_nil s, pieces_gap_append h]
  rfl

theorem pieces_item_append_blanks (hs : IsItem s) (ht : IsBlankRun t) : pieces (s ++ t) = [s] := by
  have hcomma : ',' ∉ s ++ t := by
    rw [List.mem_append]
    exact not_or.2 ⟨hs.comma_notMem, ht.comma_notMem⟩
  rw [pieces_of_notMem hcomma, hs.trim_append ht, if_neg hs.ne_nil]

/-- An item is a piece up to the first comma that follows. -/
theorem pieces_item_append_gap {gap : List Char} (hs : IsItem s) (hgap : IsGap gap)
    (hcomma : ',' ∈ gap) (rest : List Char) : pieces (s ++ gap ++ rest) = s :: pieces rest := by
  obtain ⟨blanks, after, rfl, hblanks, hafter⟩ := hgap.exists_eq_comma hcomma
  have hassoc : s ++ (blanks ++ ',' :: after) ++ rest = (s ++ blanks) ++ ',' :: (after ++ rest) := by
    simp
  rw [hassoc, pieces_append_comma, pieces_item_append_blanks hs hblanks, pieces_gap_append hafter]
  rfl

/-! ## What a text writes -/

theorem Writes.pieces_eq (h : Writes items t) : pieces t = items := by
  induction h with
  | nothing hgap => exact pieces_gap hgap
  | @last before item after hbefore hitem hafter =>
    rw [List.append_assoc, pieces_gap_append hbefore]
    by_cases hcomma : ',' ∈ after
    · rw [← List.append_nil (item ++ after), pieces_item_append_gap hitem hafter hcomma]
      rfl
    · exact pieces_item_append_blanks hitem fun c hc =>
        (hafter c hc).resolve_right fun heq => hcomma (heq ▸ hc)
  | next hbefore hitem hbetween hcomma _ ih =>
    rw [List.append_assoc, List.append_assoc, pieces_gap_append hbefore, ← List.append_assoc,
      pieces_item_append_gap hitem hbetween hcomma, ih]

theorem Writes.gap_append (hs : IsGap s) (h : Writes items t) : Writes items (s ++ t) := by
  cases h with
  | nothing hgap => exact .nothing (hs.append hgap)
  | last hbefore hitem hafter =>
    simp only [← List.append_assoc]
    exact .last (hs.append hbefore) hitem hafter
  | next hbefore hitem hbetween hcomma hrest =>
    simp only [← List.append_assoc]
    exact .next (hs.append hbefore) hitem hbetween hcomma hrest

theorem isItem_trim (hcomma : ',' ∉ s) (hne : trim s ≠ []) : IsItem (trim s) := by
  obtain ⟨before, after, hs, -⟩ := exists_eq_append_trim s
  refine ⟨hne, fun hmem => hcomma ?_, trimmed_trim s⟩
  rw [hs]
  simp [hmem]

/-- A text without commas is blank, or an item with blanks around it. -/
theorem blank_or_item (h : ',' ∉ s) : (IsBlankRun s ∧ pieces s = []) ∨
    ∃ before item after, s = before ++ item ++ after ∧ IsBlankRun before ∧ IsItem item ∧
      IsBlankRun after ∧ pieces s = [item] := by
  rw [pieces_of_notMem h]
  by_cases hblank : trim s = []
  · exact .inl ⟨trim_eq_nil_iff.1 hblank, if_pos hblank⟩
  · obtain ⟨before, after, hs, hbefore, hafter⟩ := exists_eq_append_trim s
    exact .inr ⟨before, trim s, after, hs, hbefore, isItem_trim h hblank, hafter, if_neg hblank⟩

/-- Every text writes its pieces. -/
theorem writes_pieces (t : List Char) : Writes (pieces t) t := by
  -- By the first comma: what stands before it is one item or none, and what follows is shorter.
  induction hlen : t.length using Nat.strongRecOn generalizing t with
  | ind n ih =>
    by_cases hcomma : ',' ∈ t
    · obtain ⟨s, rest, rfl, hs⟩ := List.eq_append_cons_of_mem hcomma
      have hrest := ih rest.length (by simp [← hlen]; omega) rest rfl
      rw [pieces_append_comma, List.append_cons]
      rcases blank_or_item hs with ⟨hblank, hnone⟩ | ⟨before, item, after, heq, hbefore, hitem,
        hafter, hone⟩
      · rw [hnone]
        exact .gap_append (hblank.isGap.append isGap_comma) hrest
      · rw [hone, heq, List.append_assoc (before ++ item)]
        exact .next hbefore.isGap hitem (hafter.isGap.append isGap_comma) (by simp) hrest
    · rcases blank_or_item hcomma with ⟨hblank, hnone⟩ | ⟨before, item, after, heq, hbefore, hitem,
        hafter, hone⟩
      · rw [hnone]
        exact .nothing hblank.isGap
      · rw [hone, heq]
        exact .last hbefore.isGap hitem hafter.isGap

/-- **The pieces of a text are the items that it writes.** -/
theorem pieces_eq_iff_writes : pieces t = items ↔ Writes items t :=
  ⟨fun h => h ▸ writes_pieces t, Writes.pieces_eq⟩

/-! ## What is known of a written list -/

theorem Writes.isItem (h : Writes items t) : ∀ item ∈ items, IsItem item := by
  induction h with
  | nothing => exact fun _ h => absurd h List.not_mem_nil
  | last _ hitem => exact fun _ h => List.mem_singleton.1 h ▸ hitem
  | next _ hitem _ _ _ ih => exact List.forall_mem_cons.2 ⟨hitem, ih⟩

theorem writes_intercalate (h : ∀ item ∈ items, IsItem item) :
    Writes items ([','].intercalate items) := by
  induction items with
  | nil => exact .nothing isGap_nil
  | cons item items ih =>
    obtain ⟨hitem, hitems⟩ := List.forall_mem_cons.1 h
    cases items with
    | nil => simpa using Writes.last isGap_nil hitem isGap_nil
    | cons next items =>
      rw [List.intercalate_cons_of_ne_nil (List.cons_ne_nil _ _)]
      exact .next isGap_nil hitem isGap_comma List.mem_cons_self (ih hitems)

theorem IsGap.filter_isInk (h : IsGap s) : s.filter isInk = [] := by
  rw [List.filter_eq_nil_iff]
  intro c hc
  rcases h c hc with h | rfl
  · simp [isInk, h]
  · decide

/-- Gaps hold nothing but blanks and commas, so the other characters are those of the items. -/
theorem Writes.filter_isInk (h : Writes items t) :
    t.filter isInk = items.flatten.filter isInk := by
  induction h with
  | nothing hgap => exact hgap.filter_isInk
  | last hbefore _ hafter => simp [hbefore.filter_isInk, hafter.filter_isInk]
  | next hbefore _ hbetween _ _ ih => simp [hbefore.filter_isInk, hbetween.filter_isInk, ih]

end SalesExplorer.Text
