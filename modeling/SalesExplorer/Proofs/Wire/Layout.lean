import Mathlib.Data.List.Nodup
import Mathlib.Tactic.Common
import SalesExplorer.Proofs.Reading
import SalesExplorer.Wire.Decoder

/-!
# Records read by their layout

An object whose keys are fields in the order of the layout is read field after field
(`decode_ofJson_obj`): no key is unknown, and none comes again.

Whatever a source is and however it writes the record, the draft is only changed by reading a field.
So what every field keeps true of the draft is true of it in the end (`decode_invariant`).
-/

namespace SalesExplorer

theorem Source.ofItems_eq_map (items : List Json) : ofItems items = items.map ofJson := by
  induction items with
  | nil => rw [ofItems, List.map_nil]
  | cons j rest ih => rw [ofItems, ih, List.map_cons]

namespace Wire

variable {α β δ : Type}

/-! ## Values -/

theorem list_ofJson_arr {read : Decoder β} {toJson : α → Json} {f : α → β}
    (hread : ∀ a, read (Source.ofJson (toJson a)) = .ok (f a)) (l : List α) :
    list read (Source.ofJson (.arr (l.map toJson))) = .ok (l.map f) := by
  rw [Source.ofJson, Source.ofItems_eq_map, list, List.map_map]
  induction l with
  | nil => rfl
  | cons a l ih =>
    rw [List.map_cons, mapM_cons_eq_ok_iff]
    exact ⟨f a, l.map f, hread a, ih, rfl⟩

/-- What holds of every value that is read holds of the items of a list. -/
theorem list_invariant {read : Decoder α} {P : α → Prop} (hread : ∀ s a, read s = .ok a → P a)
    {s : Source} {l : List α} (h : list read s = .ok l) : ∀ a ∈ l, P a := by
  cases s with
  | arr items =>
    change items.mapM read = .ok l at h
    induction items generalizing l with
    | nil =>
      cases h
      exact List.forall_mem_nil P
    | cons s items ih =>
      obtain ⟨a, rest, ha, hrest, rfl⟩ := mapM_cons_eq_ok_iff.1 h
      exact List.forall_mem_cons.2 ⟨hread s a ha, ih hrest⟩
  | _ => cases h

theorem optional_ok {read : Decoder β} {s : Source} {b : β} (hs : s ≠ .null)
    (h : read s = .ok b) : optional read s = .ok (some b) := by
  cases s with
  | null => exact absurd rfl hs
  | _ => exact congrArg (Except.map some) h

theorem store_ok {x : Except Problem β} {b : β} (store : β → δ) (h : x = .ok b) :
    (do return store (← x)) = Except.ok (store b) := by
  rw [h]
  rfl

theorem required_eq_ok_iff {absent : String → Problem} {name : String} {o : Option α} {x : α} :
    required absent name o = .ok x ↔ o = some x := by
  cases o <;> simp [required]

namespace Layout

variable {L : Layout δ α}

/-! ## Field after field -/

variable (L) in
/-- A member whose key is a field, read into the draft. -/
def readMember (d : δ) (m : String × Json) : Except Problem δ :=
  L.read d (L.fields.idxOf m.1) (Source.ofJson m.2)

theorem idxOf?_eq_some_idxOf {k : String} {keys : List String} (h : k ∈ keys) :
    keys.idxOf? k = some (keys.idxOf k) :=
  List.findIdx?_eq_some_iff_findIdx_eq.2 ⟨List.idxOf_lt_length_of_mem h, rfl⟩

/-- Different fields are read one after another. -/
theorem readMembers_ofMembers {ms : Members} {seen : List Nat} {d : δ}
    (hknown : ∀ k ∈ ms.keys, k ∈ L.fields) (hnodup : ms.keys.Nodup)
    (hseen : ∀ k ∈ ms.keys, L.fields.idxOf k ∉ seen) :
    L.readMembers (Source.ofMembers ms) seen d = ms.foldlM L.readMember d := by
  induction ms generalizing seen d with
  | nil =>
    rw [Source.ofMembers, readMembers, List.foldlM_nil]
    rfl
  | cons m ms ih =>
    obtain ⟨k, j⟩ := m
    obtain ⟨hk, hknown⟩ := List.forall_mem_cons.1 hknown
    obtain ⟨hnew, hnodup⟩ := List.nodup_cons.1 hnodup
    obtain ⟨hunseen, hseen⟩ := List.forall_mem_cons.1 hseen
    rw [Source.ofMembers, readMembers, List.foldlM_cons]
    simp only [idxOf?_eq_some_idxOf hk, if_neg hunseen]
    refine bind_congr fun d => ih hknown hnodup fun k' hk' => ?_
    refine List.not_mem_cons_of_ne_of_not_mem ?_ (hseen k' hk')
    intro heq
    exact hnew ((List.idxOf_inj (hknown k' hk')).1 heq ▸ hk')

/-- An object that has fields of the record for its keys, in their order. -/
theorem decode_ofJson_fields (medium : Medium) {ms : Members} (hfields : L.fields.Nodup)
    (hkeys : ms.keys.Sublist L.fields) :
    L.decode medium (Source.ofJson (.obj ms)) =
      ms.foldlM L.readMember L.blank >>= L.finish .missingField := by
  rw [Source.ofJson, decode, readMembers_ofMembers (fun k hk => hkeys.subset hk)
    (hkeys.nodup hfields) fun _ _ => List.not_mem_nil]

/-- **A record in memory** that has its fields in order, some of them left out. -/
theorem decode_ofJson_obj (medium : Medium) {ms : Members} {d : δ} {x : α}
    (hfields : L.fields.Nodup) (hkeys : ms.keys.Sublist L.fields)
    (hread : ms.foldlM L.readMember L.blank = .ok d) (hfinish : L.finish .missingField d = .ok x) :
    L.decode medium (Source.ofJson (.obj ms)) = .ok x := by
  rw [decode_ofJson_fields medium hfields hkeys, hread]
  exact hfinish

/-! ## Members in parts -/

section Parts

variable {f : δ → α → Except Problem δ} {d d' e : δ}

theorem foldlM_cons_ok {a : α} {l : List α} (h : f d a = .ok d') (hl : l.foldlM f d' = .ok e) :
    (a :: l).foldlM f d = .ok e := by
  rw [List.foldlM_cons, h]
  exact hl

theorem foldlM_append_ok {l l' : List α} (h : l.foldlM f d = .ok d')
    (h' : l'.foldlM f d' = .ok e) : (l ++ l').foldlM f d = .ok e := by
  rw [List.foldlM_append, h]
  exact h'

/-- A part that may be absent. -/
theorem foldlM_toList {part : β → α} (draft : Option β → δ)
    (h : ∀ b, f (draft none) (part b) = .ok (draft (some b))) (o : Option β) :
    (o.map part).toList.foldlM f (draft none) = .ok (draft o) := by
  cases o with
  | none => rfl
  | some b => exact foldlM_cons_ok (h b) rfl

theorem keys_toList_sublist (key : String) (toJson : β → Json) (o : Option β) :
    (Members.keys (o.map fun b => (key, toJson b)).toList).Sublist [key] := by
  cases o with
  | none => exact List.nil_sublist _
  | some b => exact List.Sublist.refl _

end Parts

/-! ## What the fields keep true -/

section Invariant

variable {P : δ → Prop} (hread : ∀ d i s d', P d → L.read d i s = .ok d' → P d')

include hread

theorem readMembers_invariant {ms : List (Option String × Source)} {seen : List Nat} {d d' : δ}
    (hd : P d) (h : L.readMembers ms seen d = .ok d') : P d' := by
  induction ms generalizing seen d with
  | nil =>
    cases h
    exact hd
  | cons m ms ih =>
    obtain ⟨k, v⟩ := m
    cases k with
    | none => cases h
    | some k =>
      rw [readMembers] at h
      split at h
      · split_ifs at h
        obtain ⟨e, he, h⟩ := bind_eq_ok_iff.1 h
        exact ih (hread _ _ _ _ hd he) h
      · split_ifs at h
        exact ih hd h

theorem readItems_invariant {items : List Source} {i : Nat} {d d' : δ} (hd : P d)
    (h : L.readItems items i d = .ok d') : P d' := by
  induction items generalizing i d with
  | nil =>
    cases h
    exact hd
  | cons v items ih =>
    rw [readItems] at h
    split_ifs at h
    · obtain ⟨e, he, h⟩ := bind_eq_ok_iff.1 h
      exact ih (hread _ _ _ _ hd he) h
    · cases h
      exact hd

/-- **What every field keeps true** of the draft is true of the draft that the record is made of. -/
theorem decode_invariant {medium : Medium} {s : Source} {x : α} (hblank : P L.blank)
    (h : L.decode medium s = .ok x) : ∃ d absent, P d ∧ L.finish absent d = .ok x := by
  cases s with
  | obj members =>
    obtain ⟨d, hd, hx⟩ := bind_eq_ok_iff.1 h
    exact ⟨d, _, readMembers_invariant hread hblank hd, hx⟩
  | arr items =>
    obtain ⟨d, hd, h⟩ := bind_eq_ok_iff.1 h
    obtain ⟨y, hy, h⟩ := bind_eq_ok_iff.1 h
    have hyx : y = x := by
      split_ifs at h
      · exact Except.ok.inj h
      · cases medium with
        | document => exact Except.ok.inj h
        | _ => cases h
    exact ⟨d, _, readItems_invariant hread hblank hd, hyx ▸ hy⟩
  | _ => cases h

end Invariant

end Layout

end Wire

end SalesExplorer
