import SalesExplorer.Proofs.Result.Cache

/-!
# The most recent results

**Theorem (`keeps_most_recent`).** After any sequence of insertions, look-ups and clearings, a cache
whose window has not passed for any of them holds, by age, the latest insertion for each query since
the last clearing, as many of them as there is place for, the most recent ones. A query that is held
and inserted again becomes the most recent one, and nothing is given up for it. A cache without a
window holds the last insertion and finds nothing, and no cache is ever overfull.

What is held is compared with the log of insertions, cut down to one entry for each query
(`newest`). An insertion puts an entry in front of it and takes the older one for its query out.
What is held follows: either the older one was among the first entries, and the others are the same;
or it was not, and the last of them makes place (`reverse_entries_insert`).

Entries stand in the order of their insertion, so the one that makes place is the one with the least
instant (`mem_insert_of_full`).
-/

namespace SalesExplorer.ResultCache

variable {c : ResultCache} {now window capacity n : Nat} {q : Query} {rows : List Row} {e : Entry}
  {log : List Entry}

/-! ## Accesses -/

/-- What is done with a cache. -/
inductive Access where
  | insert (query : Query) (rows : List Row)
  | get (query : Query)
  | contains (query : Query)
  | clear

/-- Accesses with their instants, in order. -/
abbrev Accesses := List (Nat × Access)

/-- The cache after an access. -/
def access (c : ResultCache) (now : Nat) : Access → ResultCache
  | .insert q rows => c.insert now q rows
  | .get _ | .contains _ => c
  | .clear => c.clear

def afterAll (c : ResultCache) (h : Accesses) : ResultCache :=
  h.foldl (fun c a => c.access a.1 a.2) c

/-- The insertions since the last clearing, the latest first, in front of the ones before. -/
def logAfter (log : List Entry) (h : Accesses) : List Entry :=
  h.foldl (fun log a => match a.2 with
    | .insert q rows => ⟨q, rows, a.1⟩ :: log
    | .get _ | .contains _ => log
    | .clear => []) log

theorem afterAll_filled (log : List Entry) (h : Accesses) :
    (filled window capacity log).afterAll h = filled window capacity (logAfter log h) := by
  induction h generalizing log with
  | nil => rfl
  | cons a h ih =>
    obtain ⟨now, access⟩ := a
    cases access with
    | insert q rows => exact ih (⟨q, rows, now⟩ :: log)
    | get q => exact ih log
    | contains q => exact ih log
    | clear =>
      have := ih []
      rw [← @clear_filled _ _ log] at this
      exact this

theorem mem_logAfter {h : Accesses} (he : e ∈ logAfter log h) :
    e ∈ log ∨ e.insertedAt ∈ h.map Prod.fst := by
  induction h generalizing log with
  | nil => exact .inl he
  | cons a h ih =>
    obtain ⟨now, access⟩ := a
    rw [List.map_cons, List.mem_cons]
    rcases ih he with hlog | hrest
    · cases access with
      | insert q rows =>
        rcases List.mem_cons.1 hlog with rfl | hmem
        · exact .inr (.inl rfl)
        · exact .inl hmem
      | get q => exact .inl hlog
      | contains q => exact .inl hlog
      | clear => exact absurd hlog List.not_mem_nil
    · exact .inr (.inr hrest)

/-! ## One entry for each query -/

/-- The latest insertion for each query, the latest first. -/
def newest : List Entry → List Entry
  | [] => []
  | e :: log => e :: (newest log).filter (·.query != e.query)

theorem nodup_newest (log : List Entry) : ((newest log).map Entry.query).Nodup := by
  induction log with
  | nil => exact List.nodup_nil
  | cons e log ih =>
    rw [newest, List.map_cons, List.nodup_cons]
    refine ⟨?_, ih.sublist (List.filter_sublist.map _)⟩
    intro h
    obtain ⟨e', he', hquery⟩ := List.mem_map.1 h
    simpa [hquery] using (List.mem_filter.1 he').2

/-- Nothing is taken out of the first entries. -/
theorem filter_take_of_notMem {l : List Entry} (h : ∀ e ∈ l.take n, e.query ≠ q) :
    (l.filter (·.query != q)).take n = l.take n := by
  induction l generalizing n with
  | nil => rfl
  | cons e l ih =>
    cases n with
    | zero => rfl
    | succ n =>
      rw [List.take_succ_cons, List.forall_mem_cons] at h
      simp [h.1, ih h.2]

/-- What is taken out of the first entries gives its place to the next one. -/
theorem filter_take_of_mem {l : List Entry} (hnodup : (l.map Entry.query).Nodup)
    (h : ∃ e ∈ l.take (n + 1), e.query = q) :
    (l.take (n + 1)).filter (·.query != q) = (l.filter (·.query != q)).take n := by
  induction l generalizing n with
  | nil => simp
  | cons e l ih =>
    rw [List.map_cons, List.nodup_cons] at hnodup
    obtain ⟨hnew, hnodup⟩ := hnodup
    rw [List.take_succ_cons] at h ⊢
    by_cases he : e.query = q
    · have hothers : ∀ e' ∈ l, e'.query ≠ q := by
        intro e' he' hq
        exact hnew (he ▸ hq ▸ List.mem_map_of_mem he')
      have hself : l.filter (·.query != q) = l := List.filter_eq_self.2 (by simpa using hothers)
      have hkept : (l.take n).filter (·.query != q) = l.take n :=
        List.filter_eq_self.2 fun e' he' => by simpa using hothers e' (List.mem_of_mem_take he')
      rw [List.filter_cons_of_neg (by simpa using he), List.filter_cons_of_neg (by simpa using he),
        hself, hkept]
    · have hrest : ∃ e ∈ l.take n, e.query = q := by
        obtain ⟨e', he', hq⟩ := h
        rcases List.mem_cons.1 he' with rfl | he'
        · exact absurd hq he
        · exact ⟨e', he', hq⟩
      cases n with
      | zero => simp at hrest
      | succ n =>
        rw [List.filter_cons_of_pos (by simpa using he),
          List.filter_cons_of_pos (by simpa using he), List.take_succ_cons, ih hnodup hrest]

/-! ## The most recent entries -/

/-- While all entries are live, an insertion keeps the first of the log. -/
theorem reverse_entries_insert {l : List Entry} (hcap : c.capacity = n + 1)
    (hlive : ∀ e ∈ c.entries, c.isLive now e = true) (hnodup : (l.map Entry.query).Nodup)
    (hentries : c.entries.reverse = l.take (n + 1)) (q : Query) (rows : List Row) :
    (c.insert now q rows).entries.reverse =
      (⟨q, rows, now⟩ :: l.filter (·.query != q)).take (n + 1) := by
  have hkept : c.entries.filter (c.isLive now) = c.entries := List.filter_eq_self.2 hlive
  rw [entries_insert (by omega), List.reverse_append, List.reverse_singleton, List.singleton_append,
    List.take_succ_cons, ← List.filter_reverse, withPlaceFor, hkept]
  congr 1
  by_cases hheld : ∃ e ∈ l.take (n + 1), e.query = q
  · have hany : c.entries.any (·.query == q) = true := by
      rw [← List.any_reverse, hentries]
      simpa using hheld
    simp only [hany, Bool.true_or, if_true]
    rw [hentries, filter_take_of_mem hnodup hheld]
  · have hothers : ∀ e ∈ l.take (n + 1), e.query ≠ q := by
      intro e he hq
      exact hheld ⟨e, he, hq⟩
    have hfirst : ∀ e ∈ l.take n, e.query ≠ q := by
      intro e he
      exact hothers e (List.take_subset_take_left l (Nat.le_succ n) he)
    have hany : c.entries.any (·.query == q) = false := by
      rw [← List.any_reverse, hentries]
      simpa using hothers
    have hself : (l.take n).filter (·.query != q) = l.take n :=
      List.filter_eq_self.2 (by simpa using hfirst)
    have hlength : c.entries.length = min (n + 1) l.length := by
      rw [← List.length_reverse, hentries, List.length_take]
    simp only [hany, Bool.false_or, decide_eq_true_eq]
    rw [filter_take_of_notMem hfirst, hcap]
    split_ifs with hplace
    · have hall : l.take (n + 1) = l.take n := by
        rw [List.take_of_length_le (by omega), List.take_of_length_le (by omega)]
      rw [hentries, hall, hself]
    · have hlen : c.entries.length - 1 = n := by omega
      rw [List.reverse_drop, hentries, hlen, List.take_take, Nat.min_eq_left (Nat.le_succ n), hself]

/-- A query that is held comes to the front, and nothing makes place for it. -/
theorem reverse_entries_insert_of_held (hc : c.Sound)
    (hlive : ∀ e ∈ c.entries, c.isLive now e = true) (hheld : ∃ e ∈ c.entries, e.query = q)
    (rows : List Row) : (c.insert now q rows).entries.reverse =
      ⟨q, rows, now⟩ :: c.entries.reverse.filter (·.query != q) := by
  obtain ⟨e, he, hquery⟩ := hheld
  obtain ⟨n, hcap⟩ := Nat.exists_eq_succ_of_ne_zero (hc.capacity_ne_zero he)
  have hnodup : (c.entries.reverse.map Entry.query).Nodup := by
    simpa using hc.nodup
  have hall : c.entries.reverse.take (n + 1) = c.entries.reverse := by
    rw [List.take_of_length_le]
    simpa [← Nat.succ_eq_add_one, ← hcap] using hc.length_le
  have hmem : ∃ e ∈ c.entries.reverse.take (n + 1), e.query = q := by
    rw [hall]
    exact ⟨e, List.mem_reverse.2 he, hquery⟩
  rw [reverse_entries_insert hcap hlive hnodup hall.symm, List.take_succ_cons,
    ← filter_take_of_mem hnodup hmem, hall]

theorem isLive_filled (hwindow : ∀ e ∈ log, now - e.insertedAt < window) :
    ∀ e ∈ (filled window capacity log).entries,
      (filled window capacity log).isLive now e = true := by
  intro e he
  rw [isLive_iff, window_filled]
  exact hwindow e (List.mem_of_find?_eq_some (find?_eq_some_of_mem_filled he))

/-- The entries of a cache whose window never passes are the first of the log. -/
theorem reverse_entries_filled
    (hwindow : ∀ e ∈ log, ∀ e' ∈ log, e.insertedAt - e'.insertedAt < window) :
    (filled window capacity log).entries.reverse = (newest log).take capacity := by
  cases capacity with
  | zero =>
    rw [(sound_filled window 0 log).entries_eq_nil capacity_filled]
    rfl
  | succ n =>
    induction log with
    | nil => rfl
    | cons e log ih =>
      have hsince : ∀ e' ∈ log, e.insertedAt - e'.insertedAt < window := by
        intro e' he'
        exact hwindow e List.mem_cons_self e' (List.mem_cons_of_mem e he')
      have hrest : ∀ a ∈ log, ∀ b ∈ log, a.insertedAt - b.insertedAt < window := by
        intro a ha b hb
        exact hwindow a (List.mem_cons_of_mem e ha) b (List.mem_cons_of_mem e hb)
      rw [filled_cons, newest]
      exact reverse_entries_insert capacity_filled (isLive_filled hsince) (nodup_newest log)
        (ih hrest) _ _

/-! ## Look-ups -/

theorem Sound.find?_reverse (hc : c.Sound) (q : Query) :
    c.entries.reverse.find? (·.query == q) = c.entries.find? (·.query == q) := by
  cases hfind : c.entries.find? (·.query == q) with
  | none =>
    rw [List.find?_eq_none] at hfind ⊢
    simpa using hfind
  | some e =>
    have hquery : e.query = q := by simpa using List.find?_some hfind
    have hmem : e ∈ c.entries.reverse := List.mem_reverse.2 (List.mem_of_find?_eq_some hfind)
    have hreverse : Sound { c with entries := c.entries.reverse } := by
      refine ⟨?_, ?_⟩
      · simpa using hc.length_le
      · simpa using hc.nodup
    exact hquery ▸ hreverse.find?_eq_some hmem

theorem get?_of_live (hlive : ∀ e ∈ c.entries, c.isLive now e = true) (q : Query) :
    c.get? now q = (c.entries.find? (·.query == q)).map Entry.rows := by
  rw [get?]
  cases hfind : c.entries.find? (·.query == q) with
  | none => rfl
  | some e => simp [hlive e (List.mem_of_find?_eq_some hfind)]

/-! ## Without a window -/

theorem isLive_of_window_eq_zero (h : c.window = 0) (now : Nat) (e : Entry) :
    c.isLive now e = false := by
  simp [isLive, h]

theorem get?_of_window_eq_zero (h : c.window = 0) (now : Nat) (q : Query) :
    c.get? now q = none := by
  simp [get?, isLive_of_window_eq_zero h]

/-- Every insertion finds all others expired. -/
theorem entries_filled_of_window_eq_zero (hcap : capacity ≠ 0) (log : List Entry) :
    (filled 0 capacity log).entries = log.head?.toList := by
  cases log with
  | nil => rfl
  | cons e log =>
    have hexpired : (filled 0 capacity log).entries.filter
        ((filled 0 capacity log).isLive e.insertedAt) = [] := by
      rw [List.filter_eq_nil_iff]
      intro e' _
      simp [isLive_of_window_eq_zero]
    rw [filled_cons, entries_insert (by rwa [capacity_filled]), withPlaceFor, hexpired]
    simp

/-! ## Age -/

/-- Entries stand in the order of their instants. -/
theorem pairwise_insertedAt_filled (hlog : log.Pairwise fun e e' => e'.insertedAt < e.insertedAt) :
    (filled window capacity log).entries.Pairwise (·.insertedAt < ·.insertedAt) := by
  induction log with
  | nil => exact List.Pairwise.nil
  | cons e log ih =>
    obtain ⟨hnewer, hlog⟩ := List.pairwise_cons.1 hlog
    by_cases hcap : capacity = 0
    · rw [(sound_filled ..).entries_eq_nil (by rwa [capacity_filled])]
      exact List.Pairwise.nil
    · have holder : (((filled window capacity log).withPlaceFor e.insertedAt e.query).filter
          (·.query != e.query)).Sublist (filled window capacity log).entries :=
        List.filter_sublist.trans (withPlaceFor_sublist _ _ _)
      rw [filled_cons, entries_insert (by rwa [capacity_filled]), List.pairwise_append]
      refine ⟨(ih hlog).sublist holder, List.pairwise_singleton _ _, ?_⟩
      intro a ha b hb
      have hmem := List.mem_of_find?_eq_some (find?_eq_some_of_mem_filled (holder.subset ha))
      rw [List.mem_singleton.1 hb]
      exact hnewer a hmem

/-- Where another query finds no place, the entry with the least instant makes it. -/
theorem mem_insert_of_full (hage : c.entries.Pairwise (·.insertedAt < ·.insertedAt))
    (hnew : ∀ e ∈ c.entries.filter (c.isLive now), e.query ≠ q)
    (hfull : (c.entries.filter (c.isLive now)).length = c.capacity)
    (he : e ∈ c.entries.filter (c.isLive now)) :
    e ∈ (c.insert now q rows).entries ↔
      ∃ e' ∈ c.entries.filter (c.isLive now), e'.insertedAt < e.insertedAt := by
  have hlive : (c.entries.filter (c.isLive now)).Pairwise (·.insertedAt < ·.insertedAt) :=
    hage.sublist List.filter_sublist
  have hcap : c.capacity ≠ 0 := by
    rw [← hfull]
    exact Nat.ne_of_gt (List.length_pos_of_mem he)
  rw [entries_insert hcap, withPlaceFor]
  generalize c.entries.filter (c.isLive now) = live at *
  have hany : live.any (·.query == q) = false := by simpa using hnew
  simp only [hany, hfull, Nat.lt_irrefl, decide_false, Bool.or_false, Bool.false_eq_true, if_false]
  obtain ⟨first, rest, rfl⟩ := List.exists_cons_of_ne_nil (List.ne_nil_of_mem he)
  obtain ⟨hfirst, -⟩ := List.pairwise_cons.1 hlive
  rw [List.mem_append, List.mem_filter, List.mem_singleton, List.drop_one, List.tail_cons]
  have hquery : e ≠ ⟨q, rows, now⟩ := by
    rintro rfl
    exact hnew _ he rfl
  rcases List.mem_cons.1 he with rfl | hmem
  · refine iff_of_false ?_ ?_
    · rintro (⟨hmem, -⟩ | heq)
      · exact Nat.lt_irrefl _ (hfirst e hmem)
      · exact hquery heq
    · rintro ⟨e', he', hlt⟩
      rcases List.mem_cons.1 he' with rfl | hmem
      · exact Nat.lt_irrefl _ hlt
      · exact Nat.lt_asymm hlt (hfirst e' hmem)
  · refine iff_of_true (.inl ⟨hmem, ?_⟩) ⟨first, List.mem_cons_self, hfirst e hmem⟩
    simpa using hnew e he

/-! ## The most recent results -/

/-- Any two of the instants are less than the window apart. -/
def Within (window : Nat) (instants : List Nat) : Prop :=
  ∀ s ∈ instants, ∀ t ∈ instants, t - s < window

instance (window : Nat) (instants : List Nat) : Decidable (Within window instants) :=
  inferInstanceAs (Decidable (∀ s ∈ instants, ∀ t ∈ instants, t - s < window))

/-- What a cache holds after a log of insertions that were made at some of the instants. -/
structure KeepsRecent (window capacity : Nat) (log : List Entry) (instants : List Nat) (now : Nat)
    (c : ResultCache) : Prop where
  entries : Within window (now :: instants) → c.entries.reverse = (newest log).take capacity
  get : Within window (now :: instants) → ∀ q,
    c.get? now q = (((newest log).take capacity).find? (·.query == q)).map Entry.rows
  again : Within window (now :: instants) → ∀ q rows, c.contains now q = true →
    (c.insert now q rows).entries.reverse =
      ⟨q, rows, now⟩ :: ((newest log).take capacity).filter (·.query != q)
  windowless : window = 0 → c.entries = if capacity = 0 then [] else log.head?.toList
  get_windowless : window = 0 → ∀ t q, c.get? t q = none
  placeless : capacity = 0 → c.entries = []
  size_le : c.size ≤ capacity
  latest : ∀ e ∈ c.entries, log.find? (·.query == e.query) = some e
  reads : ∀ t q, c.afterAll [(t, .get q)] = c ∧ c.afterAll [(t, .contains q)] = c
  oldest : log.Pairwise (fun e e' => e'.insertedAt < e.insertedAt) → ∀ t q rows,
    (∀ e ∈ c.entries.filter (c.isLive t), e.query ≠ q) →
    (c.entries.filter (c.isLive t)).length = capacity →
    ∀ e ∈ c.entries.filter (c.isLive t), e ∈ (c.insert t q rows).entries ↔
      ∃ e' ∈ c.entries.filter (c.isLive t), e'.insertedAt < e.insertedAt

theorem keepsRecent_filled {instants : List Nat} (hlog : ∀ e ∈ log, e.insertedAt ∈ instants)
    (now : Nat) :
    KeepsRecent window capacity log instants now (filled window capacity log) := by
  have hsound := sound_filled window capacity log
  have hentries : Within window (now :: instants) →
      (filled window capacity log).entries.reverse = (newest log).take capacity :=
    fun hwithin => reverse_entries_filled fun e he e' he' =>
      hwithin _ (List.mem_cons_of_mem _ (hlog e' he')) _ (List.mem_cons_of_mem _ (hlog e he))
  have hlive : Within window (now :: instants) → ∀ e ∈ (filled window capacity log).entries,
      (filled window capacity log).isLive now e = true :=
    fun hwithin => isLive_filled fun e he =>
      hwithin _ (List.mem_cons_of_mem _ (hlog e he)) now List.mem_cons_self
  exact {
    entries := hentries
    get := fun hwithin q => by
      rw [get?_of_live (hlive hwithin), ← hsound.find?_reverse, hentries hwithin]
    again := fun hwithin q rows hheld => by
      obtain ⟨found, hfound⟩ := Option.isSome_iff_exists.1 hheld
      obtain ⟨e, he, hquery, -, -⟩ := (get?_eq_some_iff hsound).1 hfound
      rw [reverse_entries_insert_of_held hsound (hlive hwithin) ⟨e, he, hquery⟩, hentries hwithin]
    windowless := by
      rintro rfl
      split_ifs with hzero
      · exact hsound.entries_eq_nil (capacity_filled.trans hzero)
      · exact entries_filled_of_window_eq_zero hzero log
    get_windowless := fun hzero => get?_of_window_eq_zero (window_filled.trans hzero)
    placeless := fun hzero => hsound.entries_eq_nil (capacity_filled.trans hzero)
    size_le := Nat.le_trans hsound.length_le (Nat.le_of_eq capacity_filled)
    latest := fun e he => find?_eq_some_of_mem_filled he
    reads := fun _ _ => ⟨rfl, rfl⟩
    oldest := fun hage t q rows hnew hfull e he =>
      mem_insert_of_full (pairwise_insertedAt_filled hage) hnew (hfull.trans capacity_filled.symm)
        he }

/-- **A cache keeps the most recent results.** -/
theorem keeps_most_recent (window capacity : Nat) (h : Accesses) (now : Nat) :
    KeepsRecent window capacity (logAfter [] h) (h.map Prod.fst) now
      (({ window, capacity } : ResultCache).afterAll h) := by
  have hfilled : ({ window, capacity } : ResultCache).afterAll h =
      filled window capacity (logAfter [] h) := afterAll_filled [] h
  rw [hfilled]
  exact keepsRecent_filled (fun e he => (mem_logAfter he).resolve_left List.not_mem_nil) now

/-- With place for two, a query that is inserted again outlives the one inserted after it. -/
theorem keeps_most_recent_again :
    let query (d : Dimension) : Query :=
      { metrics := [.ofColumn "total_amount" .sum], dimensions := [d] }
    let rows (name : String) : List Row := [[("name", .str name)]]
    let h : Accesses := [(1, .insert (query .store) (rows "A")),
      (2, .insert (query .channel) (rows "B")), (3, .get (query .store)),
      (4, .insert (query .store) (rows "A'")), (5, .insert (query .product) (rows "C"))]
    let c := ({ window := 60, capacity := 2 } : ResultCache).afterAll h
    let unkept := ({ window := 0, capacity := 2 } : ResultCache).afterAll h
    c.entries.reverse.map Entry.insertedAt = [5, 4] ∧
      c.get? 6 (query .store) = some (rows "A'") ∧ c.get? 6 (query .channel) = none ∧
      (c.insert 6 (query .store) (rows "A''")).entries.reverse.map Entry.insertedAt = [6, 5] ∧
      (∀ e ∈ c.entries.filter (c.isLive 6), e ∈ (c.insert 6 (query .channel) (rows "D")).entries ↔
        ∃ e' ∈ c.entries.filter (c.isLive 6), e'.insertedAt < e.insertedAt) ∧
      unkept.entries.map Entry.insertedAt = [5] := by
  intro query rows h c unkept
  have hkept := keeps_most_recent 60 2 h 6
  have hwithin : Within 60 (6 :: h.map Prod.fst) := by decide
  refine ⟨?_, hkept.get hwithin _, hkept.get hwithin _, ?_, ?_, ?_⟩
  · rw [hkept.entries hwithin]
    decide +kernel
  · rw [hkept.again hwithin _ _ (by decide +kernel)]
    decide +kernel
  · exact hkept.oldest (by decide) 6 _ _ (by decide +kernel) (by decide +kernel)
  · rw [(keeps_most_recent 0 2 h 6).windowless rfl]
    decide +kernel

end SalesExplorer.ResultCache
