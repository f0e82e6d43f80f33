import Mathlib.Data.List.Nodup
import Mathlib.Tactic.Common
import SalesExplorer.Json.Basic

/-!
# Members by key

What a list of members holds under a key after a value was set (`get?_set`), and after many values
were set one after another. A value stays unless its key comes again (`map_get?_setAll`).

Where each key stands once, a member is found under its key (`mem_iff_get?_eq_some`). Setting values
keeps it so (`nodup_keys_set`), and new members are added at the end (`setAll_of_nodup`).
-/

namespace SalesExplorer.Members

theorem get?_cons (k' : String) (c : String × Json) (ms : Members) :
    get? (c :: ms) k' = if k' = c.1 then some c.2 else get? ms k' := by
  obtain ⟨k, v⟩ := c
  unfold get?
  by_cases h : k' = k
  · simp [h]
  · simp [h, List.lookup_cons, beq_eq_false_iff_ne.2 h]

theorem get?_set (ms : Members) (k k' : String) (v : Json) :
    get? (set ms k v) k' = if k' = k then some v else get? ms k' := by
  induction ms with
  | nil => exact get?_cons k' (k, v) []
  | cons c rest ih =>
    obtain ⟨k₀, v₀⟩ := c
    by_cases h : k₀ = k
    · subst h
      simp only [set, if_true, get?_cons]
      split_ifs <;> rfl
    · simp only [set, if_neg h, get?_cons, ih]
      by_cases h₀ : k' = k₀
      · subst h₀
        simp [h]
      · simp [h₀]

/-- The members with columns set one after another. -/
def setAll (ms : Members) (columns : List (String × Json)) : Members :=
  columns.foldl (fun ms c => set ms c.1 c.2) ms

theorem get?_setAll_of_notMem (columns : List (String × Json)) (ms : Members) {k : String}
    (h : k ∉ columns.map Prod.fst) : get? (setAll ms columns) k = get? ms k := by
  induction columns generalizing ms with
  | nil => rfl
  | cons c columns ih =>
    rw [List.map_cons, List.mem_cons, not_or] at h
    obtain ⟨hc, hrest⟩ := h
    rw [setAll, List.foldl_cons, ← setAll, ih _ hrest, get?_set, if_neg hc]

theorem map_get?_setAll (columns : List (String × Json)) (ms : Members)
    (h : (columns.map Prod.fst).Nodup) :
    (columns.map Prod.fst).map (get? (setAll ms columns)) =
      (columns.map Prod.snd).map some := by
  induction columns generalizing ms with
  | nil => rfl
  | cons c columns ih =>
    obtain ⟨hc, hrest⟩ := List.nodup_cons.1 h
    simp only [List.map_cons, List.cons.injEq]
    refine ⟨?_, ?_⟩
    · rw [setAll, List.foldl_cons, ← setAll, get?_setAll_of_notMem _ _ hc, get?_set, if_pos rfl]
    · exact ih (set ms c.1 c.2) hrest

/-! ## Distinct keys -/

theorem mem_iff_get?_eq_some {ms : Members} (h : ms.keys.Nodup) {k : String} {v : Json} :
    (k, v) ∈ ms ↔ get? ms k = some v := by
  induction ms with
  | nil => simp [get?]
  | cons c ms ih =>
    obtain ⟨hc, hms⟩ := List.nodup_cons.1 h
    rw [List.mem_cons, get?_cons]
    by_cases hk : k = c.1
    · have hnew : (k, v) ∉ ms := by
        intro hmem
        exact hc (hk ▸ List.mem_map_of_mem hmem)
      simp [hk, Prod.ext_iff, eq_comm, hk ▸ hnew]
    · simp [hk, Prod.ext_iff, ih hms]

theorem mem_set {ms : Members} {k : String} {v : Json} {m : String × Json}
    (h : m ∈ set ms k v) : m = (k, v) ∨ m ∈ ms := by
  induction ms with
  | nil => exact .inl (List.mem_singleton.1 h)
  | cons c ms ih =>
    obtain ⟨k₀, v₀⟩ := c
    rw [set] at h
    split_ifs at h with hk
    · rw [List.mem_cons] at h
      rw [← hk]
      exact h.imp_right (List.mem_cons_of_mem _)
    · rcases List.mem_cons.1 h with rfl | h
      · exact .inr List.mem_cons_self
      · exact (ih h).imp_right (List.mem_cons_of_mem _)

theorem set_of_notMem {ms : Members} {k : String} (h : k ∉ ms.keys) (v : Json) :
    set ms k v = ms ++ [(k, v)] := by
  induction ms with
  | nil => rfl
  | cons c ms ih =>
    obtain ⟨hc, hms⟩ := not_or.1 (mt List.mem_cons.2 h)
    rw [set, if_neg (Ne.symm hc), ih hms, List.cons_append]

theorem keys_set_of_mem {ms : Members} {k : String} (h : k ∈ ms.keys) (v : Json) :
    (set ms k v).keys = ms.keys := by
  induction ms with
  | nil => exact absurd h List.not_mem_nil
  | cons c ms ih =>
    rw [set]
    split_ifs with hk
    · rfl
    · have hms := (List.mem_cons.1 h).resolve_left (Ne.symm hk)
      simp only [keys, List.map_cons] at ih ⊢
      rw [ih hms]

theorem nodup_keys_set {ms : Members} (h : ms.keys.Nodup) (k : String) (v : Json) :
    (set ms k v).keys.Nodup := by
  by_cases hk : k ∈ ms.keys
  · rwa [keys_set_of_mem hk]
  · rw [set_of_notMem hk, keys, List.map_append]
    apply List.nodup_append.2
    refine ⟨h, List.nodup_singleton k, ?_⟩
    intro a ha b hb hab
    rw [hab, List.mem_singleton.1 hb] at ha
    exact hk ha

/-- The members under some keys, in the order of these keys. -/
def pick (ms : Members) (keys : List String) : Members :=
  keys.filterMap fun k => (get? ms k).map (k, ·)

theorem mem_pick {ms : Members} {keys : List String} {m : String × Json} :
    m ∈ pick ms keys ↔ m.1 ∈ keys ∧ get? ms m.1 = some m.2 := by
  obtain ⟨k, v⟩ := m
  simp only [pick, List.mem_filterMap, Option.map_eq_some_iff, Prod.mk.injEq]
  constructor
  · intro ⟨k', hk', v', hv', hk, hv⟩
    exact ⟨hk ▸ hk', hk ▸ hv ▸ hv'⟩
  · intro ⟨hk, hv⟩
    exact ⟨k, hk, v, hv, rfl, rfl⟩

theorem nodup_pick {ms : Members} {keys : List String} (h : keys.Nodup) : (pick ms keys).Nodup := by
  apply h.filterMap
  intro k k' m hk hk'
  obtain ⟨v, -, rfl⟩ := Option.map_eq_some_iff.1 hk
  obtain ⟨v', -, heq⟩ := Option.map_eq_some_iff.1 hk'
  exact (congrArg Prod.fst heq).symm

theorem keys_pick_sublist (ms : Members) (keys : List String) : (pick ms keys).keys.Sublist keys := by
  induction keys with
  | nil => exact List.nil_sublist _
  | cons k keys ih =>
    rw [pick, List.filterMap_cons]
    cases get? ms k with
    | none => exact ih.cons k
    | some v => exact ih.cons_cons k

theorem setAll_of_nodup {ms columns : Members} (h : (ms ++ columns).keys.Nodup) :
    setAll ms columns = ms ++ columns := by
  induction columns generalizing ms with
  | nil => exact (List.append_nil ms).symm
  | cons c columns ih =>
    rw [List.append_cons] at h ⊢
    have hc : c.1 ∉ ms.keys := by
      intro hmem
      rw [keys, List.map_append, List.map_append, List.append_assoc] at h
      exact List.disjoint_of_nodup_append h hmem List.mem_cons_self
    rw [setAll, List.foldl_cons, ← setAll, set_of_notMem hc, ih h]

end SalesExplorer.Members
