import Mathlib.Data.List.Nodup
import Mathlib.Tactic.Common
import SalesExplorer.Result.Cache

/-!
# What the result cache holds

**Soundness** (`Sound.insert`). A cache never holds more entries than its capacity, and never two
for one query. So a look-up is a matter of membership (`get?_eq_some_iff`).

**Contents** (`find?_eq_some_of_mem_filled`). Seen from a log of insertions, the latest first, an
entry of the cache is the latest insertion for its query. Which entries are left is a matter of
window and capacity, but no entry is ever an older result. With place for one entry, the cache is
just the latest insertion (`entries_filled_one`).

**Insertion of what was found** (`entries_insert_of_hit`, `get?_insert_of_hit`). An entry that is
inserted again loses its age and stands last; nothing else that can be found is lost.
-/

namespace SalesExplorer.ResultCache

variable {c : ResultCache} {now : Nat} {q : Query} {rows : List Row} {e : Entry}

/-- There is place for every entry, and no query has two. -/
structure Sound (c : ResultCache) : Prop where
  length_le : c.entries.length ≤ c.capacity
  nodup : (c.entries.map Entry.query).Nodup

theorem sound_empty (window capacity : Nat) : Sound { window, capacity } :=
  ⟨Nat.zero_le _, List.nodup_nil⟩

theorem Sound.entries_eq_nil (hc : c.Sound) (hcap : c.capacity = 0) : c.entries = [] := by
  have hlen := hc.length_le
  rw [hcap] at hlen
  exact List.eq_nil_of_length_eq_zero (Nat.le_zero.1 hlen)

theorem Sound.capacity_ne_zero (hc : c.Sound) (he : e ∈ c.entries) : c.capacity ≠ 0 := by
  intro hcap
  rw [hc.entries_eq_nil hcap] at he
  exact List.not_mem_nil he

/-! ## Insertion -/

@[simp] theorem window_insert (c : ResultCache) (now : Nat) (q : Query) (rows : List Row) :
    (c.insert now q rows).window = c.window := by
  unfold insert
  split <;> rfl

@[simp] theorem capacity_insert (c : ResultCache) (now : Nat) (q : Query) (rows : List Row) :
    (c.insert now q rows).capacity = c.capacity := by
  unfold insert
  split <;> rfl

theorem entries_insert (hcap : c.capacity ≠ 0) (now : Nat) (q : Query) (rows : List Row) :
    (c.insert now q rows).entries =
      (c.withPlaceFor now q).filter (·.query != q) ++ [⟨q, rows, now⟩] := by
  simp [insert, hcap]

theorem withPlaceFor_sublist (c : ResultCache) (now : Nat) (q : Query) :
    (c.withPlaceFor now q).Sublist c.entries := by
  unfold withPlaceFor
  simp only
  split
  · exact List.filter_sublist
  · exact (List.drop_sublist 1 _).trans List.filter_sublist

theorem Sound.length_others_lt (hc : c.Sound) (hcap : c.capacity ≠ 0) (now : Nat) (q : Query) :
    ((c.withPlaceFor now q).filter (·.query != q)).length < c.capacity := by
  have hkept : (c.entries.filter (c.isLive now)).length ≤ c.capacity :=
    Nat.le_trans (List.length_filter_le _ _) hc.length_le
  unfold withPlaceFor
  simp only
  split
  · rename_i h
    rcases Bool.or_eq_true _ _ ▸ h with hany | hlt
    · -- The entry of the query itself is not among the others.
      obtain ⟨e, he, hq⟩ := List.any_eq_true.1 hany
      have hlt := List.length_filter_lt_length_iff_exists (p := (·.query != q)) |>.2
        ⟨e, he, by simpa using hq⟩
      exact Nat.lt_of_lt_of_le hlt hkept
    · exact Nat.lt_of_le_of_lt (List.length_filter_le _ _) (of_decide_eq_true hlt)
  · have hdrop := List.length_filter_le (·.query != q) ((c.entries.filter (c.isLive now)).drop 1)
    rw [List.length_drop] at hdrop
    omega

theorem Sound.insert (hc : c.Sound) (now : Nat) (q : Query) (rows : List Row) :
    (c.insert now q rows).Sound := by
  by_cases hcap : c.capacity = 0
  · simpa [ResultCache.insert, hcap] using hc
  · have hlt := hc.length_others_lt hcap now q
    constructor
    · rw [entries_insert hcap, capacity_insert, List.length_append, List.length_singleton]
      exact hlt
    · have hothers : (((c.withPlaceFor now q).filter (·.query != q)).map Entry.query).Nodup :=
        hc.nodup.sublist ((List.filter_sublist.trans (withPlaceFor_sublist c now q)).map _)
      rw [entries_insert hcap, List.map_append]
      refine List.nodup_append.2 ⟨hothers, List.nodup_singleton _, ?_⟩
      intro k hk k' hk' heq
      obtain ⟨e, he, rfl⟩ := List.mem_map.1 hk
      rw [List.map_singleton, List.mem_singleton] at hk'
      simpa [heq, hk'] using (List.mem_filter.1 he).2

/-- What an insertion leaves: the new entry, and older ones of other queries. -/
theorem mem_insert (hc : c.Sound) (he : e ∈ (c.insert now q rows).entries) :
    e = ⟨q, rows, now⟩ ∨ e ∈ c.entries ∧ e.query ≠ q := by
  have hcap := (hc.insert now q rows).capacity_ne_zero he
  rw [capacity_insert] at hcap
  rw [entries_insert hcap, List.mem_append, List.mem_singleton] at he
  rcases he with he | he
  · obtain ⟨hkept, hne⟩ := List.mem_filter.1 he
    exact Or.inr ⟨(withPlaceFor_sublist c now q).subset hkept, by simpa using hne⟩
  · exact Or.inl he

theorem mem_insert_self (hcap : c.capacity ≠ 0) (now : Nat) (q : Query) (rows : List Row) :
    ⟨q, rows, now⟩ ∈ (c.insert now q rows).entries := by
  rw [entries_insert hcap]
  exact List.mem_append_right _ (List.mem_singleton_self _)

/-! ## Look-up -/

theorem isLive_iff : c.isLive now e = true ↔ now - e.insertedAt < c.window := by
  simp [isLive]

theorem Sound.find?_eq_some (hc : c.Sound) (he : e ∈ c.entries) :
    c.entries.find? (·.query == e.query) = some e := by
  cases hfind : c.entries.find? (·.query == e.query) with
  | none => simpa using List.find?_eq_none.1 hfind e he
  | some e' =>
    have hmem := List.mem_of_find?_eq_some hfind
    have hquery : e'.query = e.query := by simpa using List.find?_some hfind
    rw [List.inj_on_of_nodup_map hc.nodup hmem he hquery]

/-- A look-up finds the live entry of the query. -/
theorem get?_eq_some_iff (hc : c.Sound) : c.get? now q = some rows ↔
    ∃ e ∈ c.entries, e.query = q ∧ e.rows = rows ∧ c.isLive now e = true := by
  constructor
  · intro h
    obtain ⟨e, hfind, hrows⟩ := Option.bind_eq_some_iff.1 h
    have hquery : e.query = q := by simpa using List.find?_some hfind
    split at hrows
    · rename_i hlive
      exact ⟨e, List.mem_of_find?_eq_some hfind, hquery, Option.some.inj hrows, hlive⟩
    · cases hrows
  · rintro ⟨e, he, rfl, rfl, hlive⟩
    simp [get?, hc.find?_eq_some he, hlive]

/-! ## Insertion of what was found -/

/-- A live entry that is inserted again stands last and counts its age anew. The other live entries
keep their places, and there was place enough. -/
theorem entries_insert_of_hit (hc : c.Sound) (hhit : c.get? now q = some rows) :
    (c.insert now q rows).entries =
      c.entries.filter (fun e => c.isLive now e && e.query != q) ++ [⟨q, rows, now⟩] := by
  obtain ⟨e, he, hquery, -, hlive⟩ := (get?_eq_some_iff hc).1 hhit
  have hany : (c.entries.filter (c.isLive now)).any (·.query == q) = true :=
    List.any_eq_true.2 ⟨e, List.mem_filter.2 ⟨he, hlive⟩, by simpa using hquery⟩
  have hkept : c.withPlaceFor now q = c.entries.filter (c.isLive now) := by
    unfold withPlaceFor
    simp only [hany, Bool.true_or, if_true]
  rw [entries_insert (hc.capacity_ne_zero he), hkept, List.filter_filter]
  congr 2
  funext e
  exact Bool.and_comm _ _

/-- From then on the query is found until the window has passed since the second insertion, and
every other query as before. -/
theorem get?_insert_of_hit (hc : c.Sound) (hhit : c.get? now q = some rows) {later : Nat}
    (hle : now ≤ later) (q' : Query) :
    (c.insert now q rows).get? later q' =
      if q' = q then (if later - now < c.window then some rows else none)
      else c.get? later q' := by
  have hentries := entries_insert_of_hit hc hhit
  have hsound := hc.insert now q rows
  split_ifs with hq hwindow
  · subst hq
    refine (get?_eq_some_iff hsound).2 ⟨⟨q', rows, now⟩, ?_, rfl, rfl, ?_⟩
    · rw [hentries]
      exact List.mem_append_right _ (List.mem_singleton_self _)
    · rw [isLive_iff, window_insert]
      exact hwindow
  · subst hq
    rw [Option.eq_none_iff_forall_ne_some]
    intro rows' hfound
    obtain ⟨e, he, hquery, -, hlive⟩ := (get?_eq_some_iff hsound).1 hfound
    rw [isLive_iff, window_insert] at hlive
    rcases mem_insert hc he with rfl | ⟨-, hne⟩
    · exact hwindow hlive
    · exact hne hquery
  · ext rows'
    rw [get?_eq_some_iff hsound, get?_eq_some_iff hc]
    constructor
    · rintro ⟨e, he, hquery, hrows, hlive⟩
      rw [isLive_iff, window_insert] at hlive
      rcases mem_insert hc he with rfl | ⟨hmem, -⟩
      · exact absurd hquery.symm hq
      · exact ⟨e, hmem, hquery, hrows, isLive_iff.2 hlive⟩
    · rintro ⟨e, he, hquery, hrows, hlive⟩
      rw [isLive_iff] at hlive
      refine ⟨e, ?_, hquery, hrows, ?_⟩
      · -- What is live later was live at the insertion, so it was kept.
        have hne : e.query ≠ q := by
          rw [hquery]
          exact hq
        have hkeep : (c.isLive now e && e.query != q) = true := by
          simp only [Bool.and_eq_true, isLive_iff, bne_iff_ne]
          exact ⟨by omega, hne⟩
        rw [hentries]
        exact List.mem_append_left _ (List.mem_filter.2 ⟨he, hkeep⟩)
      · rw [isLive_iff, window_insert]
        exact hlive

/-! ## Logs of insertions -/

/-- An empty cache after the insertions of a log, the latest first. -/
def filled (window capacity : Nat) (log : List Entry) : ResultCache :=
  log.foldr (fun e c => c.insert e.insertedAt e.query e.rows) { window, capacity }

variable {window capacity : Nat} {log : List Entry}

@[simp] theorem filled_nil : filled window capacity [] = { window, capacity } := rfl

@[simp] theorem filled_cons (e : Entry) (log : List Entry) : filled window capacity (e :: log) =
    (filled window capacity log).insert e.insertedAt e.query e.rows := rfl

@[simp] theorem window_filled : (filled window capacity log).window = window := by
  induction log with
  | nil => rfl
  | cons e log ih => rw [filled_cons, window_insert, ih]

@[simp] theorem capacity_filled : (filled window capacity log).capacity = capacity := by
  induction log with
  | nil => rfl
  | cons e log ih => rw [filled_cons, capacity_insert, ih]

@[simp] theorem clear_filled :
    (filled window capacity log).clear = filled window capacity [] := by
  simp [clear]

theorem sound_filled (window capacity : Nat) (log : List Entry) :
    (filled window capacity log).Sound := by
  induction log with
  | nil => exact sound_empty window capacity
  | cons e log ih => exact ih.insert _ _ _

/-- **Every entry is the latest insertion for its query.** -/
theorem find?_eq_some_of_mem_filled (he : e ∈ (filled window capacity log).entries) :
    log.find? (·.query == e.query) = some e := by
  induction log with
  | nil => exact absurd he List.not_mem_nil
  | cons x log ih =>
    rw [filled_cons] at he
    rcases mem_insert (sound_filled window capacity log) he with rfl | ⟨hmem, hne⟩
    · exact List.find?_cons_of_pos (beq_self_eq_true _)
    · rw [List.find?_cons_of_neg (by simpa using hne.symm)]
      exact ih hmem

/-- A look-up finds the latest insertion for the query, within the window. -/
theorem latest_of_get?_filled (h : (filled window capacity log).get? now q = some rows) :
    ∃ e, log.find? (·.query == q) = some e ∧ e.rows = rows ∧ now - e.insertedAt < window := by
  obtain ⟨e, he, rfl, hrows, hlive⟩ := (get?_eq_some_iff (sound_filled ..)).1 h
  rw [isLive_iff, window_filled] at hlive
  exact ⟨e, find?_eq_some_of_mem_filled he, hrows, hlive⟩

theorem get?_filled_cons_self (hcap : capacity ≠ 0) (e : Entry) (log : List Entry)
    (hlive : now - e.insertedAt < window) :
    (filled window capacity (e :: log)).get? now e.query = some e.rows := by
  refine (get?_eq_some_iff (sound_filled ..)).2 ⟨e, ?_, rfl, rfl, ?_⟩
  · rw [filled_cons]
    exact mem_insert_self (by rwa [capacity_filled]) _ _ _
  · rw [isLive_iff, window_filled]
    exact hlive

/-- **A cache for one entry holds the latest insertion of all.** -/
theorem entries_filled_one (window : Nat) (log : List Entry) :
    (filled window 1 log).entries = log.head?.toList := by
  cases log with
  | nil => rfl
  | cons e log =>
    have hcap : (filled window 1 log).capacity ≠ 0 := by simp
    have hlen := (sound_filled window 1 log).length_others_lt hcap e.insertedAt e.query
    rw [capacity_filled, Nat.lt_one_iff, List.length_eq_zero_iff] at hlen
    rw [filled_cons, entries_insert hcap, hlen]
    rfl

end SalesExplorer.ResultCache
