import Mathlib.Tactic.Common
import SalesExplorer.Json.Printer
import SalesExplorer.Json.Reader
import SalesExplorer.Proofs.Text.Digits

/-!
# JSON text read back

**Theorem (`Source.ofText_text`).** The compact text of a value is read as that value, if its
integers have 64 bits, it has no binary64 numbers, and no more than 127 of its arrays and objects
are open at once (`Legible`).

Strings are read back character by character (`string?_escapeChar`), integers by their digits
(`number?_intText`). The values themselves are read by induction on `Legible`: what is known of the
parts (`ReadsBack`) is that they are read up to a mark that stops them, with fuel for two steps per
character.
-/

namespace SalesExplorer

open Json

namespace Json.Reader

variable {rest : List Char}

/-! ## Strings -/

/-- A control character is written with four hexadecimal digits. -/
theorem exists_unit?_eq {n : Nat} (hn : n < 0x20) :
    ∃ a b c d, List.replicate (4 - (Nat.toDigits 16 n).length) '0' ++ Nat.toDigits 16 n =
      [a, b, c, d] ∧ unit? a b c d = some n := by
  have hall : ∀ n < 0x20, ∀ ds,
      ds = List.replicate (4 - (Nat.toDigits 16 n).length) '0' ++ Nat.toDigits 16 n →
        ds = [ds.getD 0 '0', ds.getD 1 '0', ds.getD 2 '0', ds.getD 3 '0'] ∧
          unit? (ds.getD 0 '0') (ds.getD 1 '0') (ds.getD 2 '0') (ds.getD 3 '0') = some n := by
    simp only [forall_eq]
    decide
  obtain ⟨hdigits, hunit⟩ := hall n hn _ rfl
  exact ⟨_, _, _, _, hdigits, hunit⟩

/-- A character is escaped by a letter, written as it is, or escaped by its number. -/
theorem escapeChar_cases (c : Char) :
    (∃ e, escapeChar c = ['\\', e] ∧ e ≠ 'u' ∧ escaped? e = some c) ∨
    (escapeChar c = [c] ∧ c ≠ '"' ∧ c ≠ '\\' ∧ 0x20 ≤ c.toNat) ∨
    (∃ x y z w, escapeChar c = ['\\', 'u', x, y, z, w] ∧ c.toNat < 0x20 ∧
      unit? x y z w = some c.toNat) := by
  by_cases hquote : c = '"'
  · exact .inl ⟨'"', by rw [hquote]; rfl, by decide, by rw [hquote]; rfl⟩
  by_cases hslash : c = '\\'
  · exact .inl ⟨'\\', by rw [hslash]; rfl, by decide, by rw [hslash]; rfl⟩
  by_cases hprint : 0x20 ≤ c.toNat
  · refine .inr (.inl ⟨?_, hquote, hslash, hprint⟩)
    rw [escapeChar, if_neg hquote, if_neg hslash, if_pos hprint]
  by_cases hn : c = '\n'
  · exact .inl ⟨'n', by rw [hn]; rfl, by decide, by rw [hn]; rfl⟩
  by_cases hr : c = '\r'
  · exact .inl ⟨'r', by rw [hr]; rfl, by decide, by rw [hr]; rfl⟩
  by_cases ht : c = '\t'
  · exact .inl ⟨'t', by rw [ht]; rfl, by decide, by rw [ht]; rfl⟩
  by_cases hb : c.toNat = 8
  · obtain rfl : c = '\x08' := Char.toNat_inj.1 hb
    exact .inl ⟨'b', rfl, by decide, rfl⟩
  by_cases hf : c.toNat = 12
  · obtain rfl : c = '\x0c' := Char.toNat_inj.1 hf
    exact .inl ⟨'f', rfl, by decide, rfl⟩
  have hcontrol := Nat.lt_of_not_le hprint
  obtain ⟨x, y, z, w, hdigits, hunit⟩ := exists_unit?_eq hcontrol
  refine .inr (.inr ⟨x, y, z, w, ?_, hcontrol, hunit⟩)
  rw [escapeChar, if_neg hquote, if_neg hslash, if_neg hprint, if_neg hn, if_neg hr, if_neg ht,
    if_neg hb, if_neg hf]
  dsimp only
  rw [List.append_assoc, hdigits]
  rfl

theorem string?_escapeChar (c : Char) (t : List Char) :
    string? (escapeChar c ++ rest) (some t) none = string? rest (some (c :: t)) none := by
  obtain ⟨e, hc, hu, he⟩ | ⟨hc, hquote, hslash, hprint⟩ | ⟨x, y, z, w, hc, hcontrol, hunit⟩ :=
    escapeChar_cases c
  · rw [hc, List.cons_append, List.singleton_append, string?, he]
    · rfl
    · exact fun _ _ _ _ _ h => absurd h hu
  · have hplain : ¬(c.toNat < 0x20 ∨ c = '\\') := not_or.2 ⟨Nat.not_lt.2 hprint, hslash⟩
    rw [hc, List.singleton_append, string?, if_neg hplain]
    · rfl
    · exact hquote
    · exact fun _ _ _ _ _ h => absurd h hslash
    · exact fun _ _ h => absurd h hslash
  · have hhigh : isHigh c.toNat = false := by simp [isHigh]; omega
    have hlow : isLow c.toNat = false := by simp [isLow]; omega
    simp only [hc, List.cons_append, List.nil_append]
    rw [string?, hunit]
    simp only [Text.pushUnit, hhigh, hlow, Bool.false_eq_true, if_false, Option.map_some,
      Char.ofNat_toNat]

/-- **A string** is read back up to its closing quote. -/
theorem text?_stringText (s : String) :
    text? (s.toList.flatMap escapeChar ++ '"' :: rest) = some (some s, rest) := by
  have hstring (cs t : List Char) :
      string? (cs.flatMap escapeChar ++ '"' :: rest) (some t) none =
        some (some (t.reverse ++ cs), rest) := by
    induction cs generalizing t with
    | nil =>
      rw [List.append_nil]
      rfl
    | cons c cs ih =>
      rw [List.flatMap_cons, List.append_assoc, string?_escapeChar, ih, List.reverse_cons,
        List.append_assoc, List.singleton_append]
  rw [text?, hstring]
  simp

/-! ## Integers -/

/-- What may follow a value: nothing, or a mark between or after values. -/
def Stops : List Char → Prop
  | [] => True
  | c :: _ => c = ',' ∨ c = ']' ∨ c = '\x7d'

theorem stops_cons {c : Char} (h : c ∈ [',', ']', '\x7d']) (t : List Char) : Stops (c :: t) := by
  simpa [Stops] using h

theorem Stops.not_isDigit {c : Char} {t : List Char} (h : Stops (c :: t)) : isDigit c = false := by
  rcases h with rfl | rfl | rfl <;> rfl

theorem span_toDigits (hrest : Stops rest) (n : Nat) :
    (Nat.toDigits 10 n ++ rest).takeWhile isDigit = Nat.toDigits 10 n ∧
      (Nat.toDigits 10 n ++ rest).dropWhile isDigit = rest := by
  rw [List.takeWhile_append_of_pos fun _ => isDigit_of_mem_toDigits,
    List.dropWhile_append_of_pos fun _ => isDigit_of_mem_toDigits]
  cases rest with
  | nil => exact ⟨List.append_nil _, rfl⟩
  | cons c t => simp [hrest.not_isDigit]

theorem toDigits_lead (n : Nat) :
    ((Nat.toDigits 10 n).isEmpty ||
      (Nat.toDigits 10 n).head? == some '0' && (Nat.toDigits 10 n).length != 1) = false := by
  rcases Nat.eq_zero_or_pos n with rfl | hn
  · rfl
  · rw [beq_eq_false_iff_ne.2 (head?_toDigits_ne_zero hn), Bool.false_and, Bool.or_false,
      List.isEmpty_eq_false_iff]
    exact Nat.toDigits_ne_nil

theorem number?_neg (hrest : Stops rest) (n : Nat) :
    number? ('-' :: (Nat.toDigits 10 n ++ rest)) = some (integer true n, rest) := by
  obtain ⟨htake, hdrop⟩ := span_toDigits hrest n
  rw [number?]
  simp only [htake, hdrop, toDigits_lead, ofDigits_toDigits]
  match rest, hrest with
  | [], _ => rfl
  | _ :: _, .inl rfl => rfl
  | _ :: _, .inr (.inl rfl) => rfl
  | _ :: _, .inr (.inr rfl) => rfl

theorem number?_toDigits (hrest : Stops rest) (n : Nat) :
    number? (Nat.toDigits 10 n ++ rest) = some (integer false n, rest) := by
  obtain ⟨htake, hdrop⟩ := span_toDigits hrest n
  rw [number?]
  · simp only [htake, hdrop, toDigits_lead, ofDigits_toDigits]
    match rest, hrest with
    | [], _ => rfl
    | _ :: _, .inl rfl => rfl
    | _ :: _, .inr (.inl rfl) => rfl
    | _ :: _, .inr (.inr rfl) => rfl
  · intro s hs
    obtain ⟨c, ds, hds, hc⟩ := exists_toDigits_eq_cons n
    rw [hds] at hs
    obtain ⟨rfl, -⟩ := List.cons.inj hs
    cases hc

/-- **An integer of 64 bits** is read back. -/
theorem number?_intText {n : Int} (hlow : -0x8000000000000000 ≤ n) (hhigh : n < UInt64.size)
    (hrest : Stops rest) :
    number? ((intText n).toList ++ rest) = some (.int n, rest) := by
  rw [intText, String.toList_ofList]
  split_ifs with hneg
  · have hrange : n.natAbs ≠ 0 ∧ n.natAbs ≤ 0x8000000000000000 := by omega
    have hvalue : -(n.natAbs : Int) = n := by omega
    rw [List.singleton_append, List.cons_append, number?_neg hrest, integer, if_pos rfl,
      if_pos hrange, hvalue]
  · have hrange : n.natAbs < UInt64.size := by omega
    have hvalue : (n.natAbs : Int) = n := by omega
    rw [List.nil_append, number?_toDigits hrest, integer, if_neg Bool.false_ne_true,
      if_pos hrange, hvalue]

/-! ## Values -/

/-- The text of a value at a depth is read back. -/
structure ReadsBack (depth : Nat) (j : Json) : Prop where
  /-- Not taken for white space, nor for the end of an array. -/
  head : ∃ c t, j.text.toList = c :: t ∧ isSpace c = false ∧ c ≠ ']'
  value {fuel : Nat} {rest : List Char} (hrest : Stops rest)
    (hfuel : 2 * j.text.toList.length ≤ fuel) :
    value fuel depth (j.text.toList ++ rest) = (Source.ofJson j, some rest)

theorem itemTexts_eq_map (items : List Json) : itemTexts items = items.map text := by
  induction items with
  | nil => rw [itemTexts, List.map_nil]
  | cons j items ih => rw [itemTexts, ih, List.map_cons]

theorem memberTexts_eq_map (ms : Members) :
    memberTexts ms = ms.map fun m => stringText m.1 ++ ":" ++ text m.2 := by
  induction ms with
  | nil => rw [memberTexts, List.map_nil]
  | cons m ms ih => rw [memberTexts, ih, List.map_cons]

theorem skip_cons {c : Char} {t : List Char} (hc : isSpace c = false) : skip (c :: t) = c :: t :=
  List.dropWhile_cons_of_neg (by rw [hc]; exact Bool.false_ne_true)

theorem exists_intText_eq_cons (n : Int) :
    ∃ c t, (intText n).toList = c :: t ∧ (isDigit c = true ∨ c = '-') := by
  rw [intText, String.toList_ofList]
  split_ifs with hneg
  · exact ⟨'-', _, rfl, .inr rfl⟩
  · obtain ⟨c, ds, hds, hc⟩ := exists_toDigits_eq_cons n.natAbs
    exact ⟨c, ds, hds, .inl hc⟩

theorem isSpace_of_isDigit {c : Char} (h : isDigit c = true) : isSpace c = false := by
  have hne (d : Char) (hd : isDigit d = false) : (c == d) = false := by
    refine beq_eq_false_iff_ne.2 ?_
    rintro rfl
    exact absurd h (by rw [hd]; exact Bool.false_ne_true)
  rw [isSpace, hne ' ' rfl, hne '\n' rfl, hne '\t' rfl, hne '\r' rfl]
  rfl

theorem readsBack_of_step {depth : Nat} {j : Json} {c : Char} {t : List Char}
    (htext : j.text.toList = c :: t) (hspace : isSpace c = false) (hend : c ≠ ']')
    (hstep : ∀ fuel rest, Stops rest →
      value (fuel + 1) depth (c :: (t ++ rest)) = (Source.ofJson j, some rest)) :
    ReadsBack depth j where
  head := ⟨c, t, htext, hspace, hend⟩
  value := by
    intro fuel rest hrest hfuel
    rw [htext, List.length_cons] at hfuel
    obtain ⟨fuel, rfl⟩ := Nat.exists_eq_add_one_of_ne_zero (show fuel ≠ 0 by omega)
    rw [htext, List.cons_append]
    exact hstep fuel rest hrest

theorem readsBack_int {depth : Nat} {n : Int} (hlow : -0x8000000000000000 ≤ n)
    (hhigh : n < UInt64.size) : ReadsBack depth (.int n) := by
  obtain ⟨c, t, htext, hc⟩ := exists_intText_eq_cons n
  have hspace : isSpace c = false := by
    rcases hc with hc | rfl
    · exact isSpace_of_isDigit hc
    · rfl
  refine readsBack_of_step htext hspace (by rintro rfl; exact absurd hc (by decide)) ?_
  intro fuel rest hrest
  have hnumber := number?_intText hlow hhigh hrest
  rw [htext, List.cons_append] at hnumber
  rw [value, skip_cons hspace]
  split
  case h_7 =>
    rw [hnumber]
    rfl
  all_goals
    rename_i heq
    rw [(List.cons.inj heq).1] at hc
    exact absurd hc (by decide)

theorem readsBack_str (depth : Nat) (s : String) : ReadsBack depth (.str s) := by
  have htext : (Json.str s).text.toList = '"' :: (s.toList.flatMap escapeChar ++ ['"']) := by
    rw [text, stringText, String.toList_ofList]
  refine readsBack_of_step htext rfl (by decide) ?_
  intro fuel rest hrest
  rw [List.append_assoc, List.singleton_append, value, skip_cons rfl]
  simp only [text?_stringText]
  rfl

theorem ReadsBack.skip_text {depth : Nat} {j : Json} (h : ReadsBack depth j) (s : List Char) :
    skip (j.text.toList ++ s) = j.text.toList ++ s := by
  obtain ⟨c, t, htext, hspace, -⟩ := h.head
  rw [htext, List.cons_append, skip_cons hspace]

theorem ReadsBack.text_ne {depth : Nat} {j : Json} (h : ReadsBack depth j) (s t : List Char) :
    j.text.toList ++ s ≠ ']' :: t := by
  obtain ⟨c, t, htext, -, hend⟩ := h.head
  rw [htext]
  intro heq
  exact hend (List.cons.inj heq).1

/-! ## Arrays -/

section Items

variable {depth fuel : Nat} {first : Bool} {j : Json}

theorem items_last (hj : ReadsBack depth j) (hfuel : 2 * j.text.toList.length ≤ fuel) :
    items (fuel + 1) depth first (j.text.toList ++ ']' :: rest) =
      ([Source.ofJson j], some rest) := by
  rw [items, hj.skip_text, hj.value (stops_cons (by decide) rest) hfuel]
  · rfl
  · intro t _ heq
    rw [hj.skip_text] at heq
    exact hj.text_ne _ _ heq

theorem items_next (hj : ReadsBack depth j) (hfuel : 2 * j.text.toList.length ≤ fuel)
    {s : List Char} {vs : List Source} (hs : items fuel depth false s = (vs, some rest)) :
    items (fuel + 1) depth first (j.text.toList ++ ',' :: s) =
      (Source.ofJson j :: vs, some rest) := by
  rw [items, hj.skip_text, hj.value (stops_cons (by decide) s) hfuel]
  · simp only [Option.map_some, skip_cons (c := ',') rfl, hs]
  · intro t _ heq
    rw [hj.skip_text] at heq
    exact hj.text_ne _ _ heq

/-- The items of an array that is not empty. -/
theorem items_texts {l : List Json} (hl : ∀ j' ∈ j :: l, ReadsBack depth j')
    (hfuel : 2 * ([','].intercalate ((j :: l).map (·.text.toList))).length < fuel) :
    items fuel depth first ([','].intercalate ((j :: l).map (·.text.toList)) ++ ']' :: rest) =
      (Source.ofItems (j :: l), some rest) := by
  induction l generalizing j fuel first with
  | nil =>
    rw [List.map_cons, List.map_nil, List.intercalate_singleton] at hfuel ⊢
    obtain ⟨fuel, rfl⟩ := Nat.exists_eq_add_one_of_ne_zero (show fuel ≠ 0 by omega)
    exact items_last (hl j List.mem_cons_self) (by omega)
  | cons j' l ih =>
    obtain ⟨hj, hl⟩ := List.forall_mem_cons.1 hl
    obtain ⟨fuel, rfl⟩ := Nat.exists_eq_add_one_of_ne_zero (show fuel ≠ 0 by omega)
    rw [List.map_cons, List.map_cons, List.intercalate_cons_cons,
      ← List.map_cons (f := fun j : Json => j.text.toList)] at hfuel ⊢
    rw [List.length_append, List.length_append, List.length_singleton] at hfuel
    rw [List.append_assoc, List.append_assoc, List.singleton_append]
    exact items_next hj (by omega) (ih hl (by omega))

theorem items_text {l : List Json} (hl : ∀ j ∈ l, ReadsBack depth j)
    (hfuel : 2 * ([','].intercalate (l.map (·.text.toList))).length < fuel) :
    items fuel depth true ([','].intercalate (l.map (·.text.toList)) ++ ']' :: rest) =
      (Source.ofItems l, some rest) := by
  cases l with
  | nil =>
    obtain ⟨fuel, rfl⟩ := Nat.exists_eq_add_one_of_ne_zero (show fuel ≠ 0 by omega)
    rfl
  | cons j l => exact items_texts hl hfuel

end Items

/-! ## Objects -/

section Members

variable {depth fuel : Nat} {first : Bool} {m : String × Json}

/-- The text of a member: its key, a colon and its value. -/
def memberText (m : String × Json) : List Char := (stringText m.1 ++ ":" ++ m.2.text).toList

theorem memberText_append (m : String × Json) (s : List Char) :
    memberText m ++ s =
      '"' :: (m.1.toList.flatMap escapeChar ++ '"' :: ':' :: (m.2.text.toList ++ s)) := by
  simp [memberText, stringText]

theorem length_text_le_memberText (m : String × Json) :
    m.2.text.toList.length ≤ (memberText m).length := by
  rw [memberText, String.toList_append, List.length_append]
  exact Nat.le_add_left _ _

theorem members_last (hm : ReadsBack depth m.2) (hfuel : 2 * m.2.text.toList.length ≤ fuel) :
    members (fuel + 1) depth first (memberText m ++ '\x7d' :: rest) =
      ([(some m.1, Source.ofJson m.2)], some rest) := by
  rw [memberText_append, members.eq_def]
  cases first <;> simp only [skip_cons (c := '"') rfl, text?_stringText, skip_cons (c := ':') rfl,
    hm.value (stops_cons (c := '\x7d') (by decide) rest) hfuel, Option.map_some,
    skip_cons (c := '\x7d') rfl]

theorem members_next (hm : ReadsBack depth m.2) (hfuel : 2 * m.2.text.toList.length ≤ fuel)
    {s : List Char} {vs : List (Option String × Source)}
    (hs : members fuel depth false s = (vs, some rest)) :
    members (fuel + 1) depth first (memberText m ++ ',' :: s) =
      ((some m.1, Source.ofJson m.2) :: vs, some rest) := by
  rw [memberText_append, members.eq_def]
  cases first <;> simp only [skip_cons (c := '"') rfl, text?_stringText, skip_cons (c := ':') rfl,
    hm.value (stops_cons (c := ',') (by decide) s) hfuel, Option.map_some,
    skip_cons (c := ',') rfl, hs]

/-- The members of an object that is not empty. -/
theorem members_texts {ms : Members} (hms : ∀ m' ∈ m :: ms, ReadsBack depth m'.2)
    (hfuel : 2 * ([','].intercalate ((m :: ms).map memberText)).length < fuel) :
    members fuel depth first ([','].intercalate ((m :: ms).map memberText) ++ '\x7d' :: rest) =
      (Source.ofMembers (m :: ms), some rest) := by
  induction ms generalizing m fuel first with
  | nil =>
    rw [List.map_cons, List.map_nil, List.intercalate_singleton] at hfuel ⊢
    have hle := length_text_le_memberText m
    obtain ⟨fuel, rfl⟩ := Nat.exists_eq_add_one_of_ne_zero (show fuel ≠ 0 by omega)
    exact members_last (hms m List.mem_cons_self) (by omega)
  | cons m' ms ih =>
    obtain ⟨hm, hms⟩ := List.forall_mem_cons.1 hms
    have hle := length_text_le_memberText m
    obtain ⟨fuel, rfl⟩ := Nat.exists_eq_add_one_of_ne_zero (show fuel ≠ 0 by omega)
    rw [List.map_cons, List.map_cons, List.intercalate_cons_cons,
      ← List.map_cons (f := memberText)] at hfuel ⊢
    rw [List.length_append, List.length_append, List.length_singleton] at hfuel
    rw [List.append_assoc, List.append_assoc, List.singleton_append]
    exact members_next hm (by omega) (ih hms (by omega))

theorem members_text {ms : Members} (hms : ∀ m ∈ ms, ReadsBack depth m.2)
    (hfuel : 2 * ([','].intercalate (ms.map memberText)).length < fuel) :
    members fuel depth true ([','].intercalate (ms.map memberText) ++ '\x7d' :: rest) =
      (Source.ofMembers ms, some rest) := by
  cases ms with
  | nil =>
    obtain ⟨fuel, rfl⟩ := Nat.exists_eq_add_one_of_ne_zero (show fuel ≠ 0 by omega)
    rfl
  | cons m ms => exact members_texts hms hfuel

end Members

/-! ## Values of every kind -/

theorem toList_text_arr (items : List Json) : (Json.arr items).text.toList =
    '[' :: ([','].intercalate (items.map (·.text.toList)) ++ [']']) := by
  rw [text, itemTexts_eq_map, String.toList_append, String.toList_append,
    String.toList_intercalate, List.map_map]
  rfl

theorem toList_text_obj (ms : Members) : (Json.obj ms).text.toList =
    '\x7b' :: ([','].intercalate (ms.map memberText) ++ ['\x7d']) := by
  rw [text, memberTexts_eq_map, String.toList_append, String.toList_append,
    String.toList_intercalate, List.map_map]
  rfl

theorem readsBack_arr {depth : Nat} {items : List Json} (hdepth : depth < maxDepth)
    (hitems : ∀ j ∈ items, ReadsBack (depth + 1) j) : ReadsBack depth (.arr items) where
  head := by
    rw [toList_text_arr]
    exact ⟨'[', _, rfl, rfl, by decide⟩
  value := by
    intro fuel rest hrest hfuel
    rw [toList_text_arr] at hfuel ⊢
    rw [List.length_cons, List.length_append, List.length_singleton] at hfuel
    obtain ⟨fuel, rfl⟩ := Nat.exists_eq_add_one_of_ne_zero (show fuel ≠ 0 by omega)
    rw [List.cons_append, List.append_assoc, List.singleton_append, value, skip_cons rfl]
    simp only [items_text hitems (show _ < fuel by omega), limited,
      if_pos (Nat.succ_le_of_lt hdepth), Source.ofJson]

theorem readsBack_obj {depth : Nat} {ms : Members} (hdepth : depth < maxDepth)
    (hms : ∀ m ∈ ms, ReadsBack (depth + 1) m.2) : ReadsBack depth (.obj ms) where
  head := by
    rw [toList_text_obj]
    exact ⟨'\x7b', _, rfl, rfl, by decide⟩
  value := by
    intro fuel rest hrest hfuel
    rw [toList_text_obj] at hfuel ⊢
    rw [List.length_cons, List.length_append, List.length_singleton] at hfuel
    obtain ⟨fuel, rfl⟩ := Nat.exists_eq_add_one_of_ne_zero (show fuel ≠ 0 by omega)
    rw [List.cons_append, List.append_assoc, List.singleton_append, value, skip_cons rfl]
    simp only [members_text hms (show _ < fuel by omega), limited,
      if_pos (Nat.succ_le_of_lt hdepth), Source.ofJson]

/-- The values that are read back from their text at a depth: integers have 64 bits, there are no
binary64 numbers, and no more arrays and objects are open than can be read. -/
inductive Legible : Nat → Json → Prop
  | null {depth : Nat} : Legible depth .null
  | bool {depth : Nat} {b : Bool} : Legible depth (.bool b)
  | int {depth : Nat} {n : Int} (hlow : -0x8000000000000000 ≤ n) (hhigh : n < UInt64.size) :
      Legible depth (.int n)
  | str {depth : Nat} {s : String} : Legible depth (.str s)
  | arr {depth : Nat} {items : List Json} (hdepth : depth < maxDepth)
      (hitems : ∀ j ∈ items, Legible (depth + 1) j) : Legible depth (.arr items)
  | obj {depth : Nat} {ms : Members} (hdepth : depth < maxDepth)
      (hms : ∀ m ∈ ms, Legible (depth + 1) m.2) : Legible depth (.obj ms)

theorem Legible.readsBack {depth : Nat} {j : Json} (h : Legible depth j) : ReadsBack depth j := by
  induction h with
  | null => exact readsBack_of_step (t := ['u', 'l', 'l']) rfl rfl (by decide) fun _ _ _ => rfl
  | @bool _ b =>
    cases b with
    | true => exact readsBack_of_step (t := ['r', 'u', 'e']) rfl rfl (by decide) fun _ _ _ => rfl
    | false =>
      exact readsBack_of_step (t := ['a', 'l', 's', 'e']) rfl rfl (by decide) fun _ _ _ => rfl
  | int hlow hhigh => exact readsBack_int hlow hhigh
  | str => exact readsBack_str _ _
  | arr hdepth _ ih => exact readsBack_arr hdepth ih
  | obj hdepth _ ih => exact readsBack_obj hdepth ih

end Json.Reader

/-- **A text of JSON** is read as the value that it was written for. -/
theorem Source.ofText_text {j : Json} (h : Json.Reader.Legible 0 j) :
    ofText j.text = (ofJson j, true) := by
  have hvalue : Json.Reader.value (2 * j.text.toList.length + 2) 0 (j.text.toList ++ []) =
      (ofJson j, some []) :=
    h.readsBack.value trivial (by omega)
  rw [List.append_nil] at hvalue
  rw [ofText]
  simp only [hvalue]
  rfl

end SalesExplorer
