import Mathlib.Tactic.Common
import SalesExplorer.Proofs.Retrieval.Successes

/-!
# Replaying renews

A replayed result enters the cache like a retrieved one, so its age starts again.

**Theorem (`replay_renews`).** A run that the cache answers moves the entry of its query to the end,
as the youngest one, and lets it count its age from this instant. The other live entries keep their
places and their ages. So the cache stays as it was only if nothing had expired and the entry was
already the youngest and of this very instant. A result that is asked for again and again, each time
within the window, is replayed without end.

What this does to expiry and to the choice of the oldest entry is seen in `replay_outlives`.
-/

namespace SalesExplorer.Retriever

open ResultCache

variable {r : Retriever} {now later window capacity : Nat} {q : Query} {rows : List Row}

theorem sound_cache_after (window capacity : Nat) (h : History) :
    ((fresh window capacity).after h).cache.Sound := by
  rw [cache_after]
  exact sound_filled window capacity _

theorem window_cache_after (window capacity : Nat) (h : History) :
    ((fresh window capacity).after h).cache.window = window := by
  rw [cache_after]
  exact window_filled

/-- A run that the cache answers inserts the answer once more. -/
theorem cache_step_of_replay (hrows : r.replay? now q = some rows) :
    (r.step now (.run q)).cache = r.cache.insert now q rows := by
  obtain ⟨hq, hc⟩ := replay?_eq_some_iff.1 hrows
  rw [step, run_of_hit hq hc]

theorem replay?_again (hc : r.cache.Sound) (hrows : r.replay? now q = some rows)
    (hle : now ≤ later) (hlive : later - now < r.cache.window) :
    (r.step now (.run q)).replay? later q = some rows := by
  obtain ⟨hq, hfound⟩ := replay?_eq_some_iff.1 hrows
  refine replay?_eq_some_iff.2 ⟨hq, ?_⟩
  rw [cache_step_of_replay hrows, get?_insert_of_hit hc hfound hle, if_pos rfl, if_pos hlive]

/-- Any number of replays, each within the window of the one before. -/
theorem replay?_after_replays (hc : r.cache.Sound) (hrows : r.replay? now q = some rows)
    {instants : List Nat} (hchain : List.IsChain
      (fun a b => a ≤ b ∧ b - a < r.cache.window) (now :: (instants ++ [later]))) :
    (r.after ((now :: instants).map fun t => (t, .run q))).replay? later q = some rows := by
  induction instants generalizing r now with
  | nil =>
    obtain ⟨⟨hle, hlive⟩, -⟩ := List.isChain_cons_cons.1 hchain
    exact replay?_again hc hrows hle hlive
  | cons t instants ih =>
    obtain ⟨⟨hle, hlive⟩, hrest⟩ := List.isChain_cons_cons.1 hchain
    have hcache := cache_step_of_replay hrows
    have hsound : (r.step now (.run q)).cache.Sound := by
      rw [hcache]
      exact hc.insert now q rows
    refine ih hsound (replay?_again hc hrows hle hlive) ?_
    rw [hcache, window_insert]
    exact hrest

/-- The cache stays as it was only where there was nothing to renew. -/
theorem insert_eq_self_iff {c : ResultCache} (hc : c.Sound) (hhit : c.get? now q = some rows) :
    c.insert now q rows = c ↔
      (∀ e ∈ c.entries, c.isLive now e = true) ∧ c.entries.getLast? = some ⟨q, rows, now⟩ := by
  have hentries := entries_insert_of_hit hc hhit
  constructor
  · intro heq
    have hself := congrArg entries heq
    rw [hentries] at hself
    refine ⟨fun e he => ?_, ?_⟩
    · rw [← hself, List.mem_append, List.mem_singleton] at he
      rcases he with he | rfl
      · exact (Bool.and_eq_true_iff.1 (List.mem_filter.1 he).2).1
      · -- The window is not empty, because the look-up found something in it.
        obtain ⟨e', -, -, -, hlive⟩ := (get?_eq_some_iff hc).1 hhit
        rw [isLive_iff] at hlive ⊢
        show now - now < c.window
        omega
    · rw [← hself]
      exact List.getLast?_append_of_ne_nil _ (List.cons_ne_nil _ _)
  · rintro ⟨hlive, hlast⟩
    obtain ⟨older, hsplit⟩ := List.getLast?_eq_some_iff.1 hlast
    have hnodup := hc.nodup
    rw [hsplit, List.map_append, List.nodup_append] at hnodup
    have hkept : older.filter (fun e => c.isLive now e && e.query != q) = older := by
      refine List.filter_eq_self.2 fun e he => ?_
      have hne : e.query ≠ q :=
        hnodup.2.2 e.query (List.mem_map_of_mem he) q (List.mem_singleton_self _)
      have hmem : e ∈ c.entries := by
        rw [hsplit]
        exact List.mem_append_left _ he
      simp [hlive e hmem, hne]
    have hsame : (c.insert now q rows).entries = c.entries := by
      rw [hentries, hsplit, List.filter_append, hkept]
      simp
    have hcap : c.capacity ≠ 0 := hc.capacity_ne_zero (List.mem_of_getLast? hlast)
    unfold ResultCache.insert
    rw [if_neg hcap]
    rw [entries_insert hcap] at hsame
    rw [hsame]

/-- **Replaying renews**, in every state that a history reaches. -/
theorem replay_renews (window capacity : Nat) (h : History) (now : Nat) (q : Query)
    (rows : List Row) :
    let r := (fresh window capacity).after h
    let r' := r.step now (.run q)
    r.replay? now q = some rows →
      r'.cache.entries =
        r.cache.entries.filter (fun e => r.cache.isLive now e && e.query != q) ++
          [⟨q, rows, now⟩] ∧
      (∀ (later : Nat) (q' : Query), now ≤ later → r'.cache.get? later q' =
        if q' = q then (if later - now < window then some rows else none)
        else r.cache.get? later q') ∧
      (r'.cache = r.cache ↔ (∀ e ∈ r.cache.entries, r.cache.isLive now e = true) ∧
        r.cache.entries.getLast? = some ⟨q, rows, now⟩) ∧
      (∀ (instants : List Nat) (later : Nat),
        List.IsChain (fun a b => a ≤ b ∧ b - a < window) (now :: (instants ++ [later])) →
        (r.after ((now :: instants).map fun t => (t, .run q))).replay? later q = some rows) := by
  intro r r' hrows
  have hsound : r.cache.Sound := sound_cache_after window capacity h
  have hwindow : r.cache.window = window := window_cache_after window capacity h
  have hcache : r'.cache = r.cache.insert now q rows := cache_step_of_replay hrows
  have hfound := (replay?_eq_some_iff.1 hrows).2
  rw [hcache]
  refine ⟨entries_insert_of_hit hsound hfound, fun later q' hle => ?_,
    insert_eq_self_iff hsound hfound, fun instants later hchain => ?_⟩
  · rw [get?_insert_of_hit hsound hfound hle, hwindow]
  · refine replay?_after_replays hsound hrows ?_
    rw [hwindow]
    exact hchain

/-- With a window of 30, a result of instant 1 that was asked for at 20 and 45 is replayed at 60. -/
theorem replay_renews_thrice :
    let q : Query := { metrics := [.ofColumn "total_amount" .sum], dimensions := [.store] }
    let rows : List Row := [[("store_name", .str "A"), ("sum_total_amount", .int 120)]]
    let r := (fresh 30 1).after [(0, .run q), (1, .answer 1 (.ok rows))]
    r.replay? 20 q = some rows ∧ (r.step 20 (.run q)).cache.get? 49 q = some rows ∧
    (r.after [(20, .run q), (45, .run q)]).replay? 60 q = some rows := by
  intro q rows r
  have hrows : r.replay? 20 q = some rows := by rfl
  obtain ⟨-, hlookup, -, hagain⟩ :=
    replay_renews 30 1 [(0, .run q), (1, .answer 1 (.ok rows))] 20 q rows hrows
  exact ⟨hrows, hlookup 49 q (by decide), hagain [45] 60 (by decide)⟩

/-- **A replayed result outlives what it should not.** With place for two, the older of two results
is asked for again; it then counts as the younger one, so the other one makes place for a third.
With a window of 30, a result of instant 1 that was asked for at 20 is replayed at 40. -/
theorem replay_outlives :
    let query (d : Dimension) : Query :=
      { metrics := [.ofColumn "total_amount" .sum], dimensions := [d] }
    let rows (name : String) : List Row := [[("name", .str name)]]
    let r := (fresh 60 2).after [(0, .run (query .store)), (1, .answer 1 (.ok (rows "A"))),
      (2, .run (query .channel)), (3, .answer 2 (.ok (rows "B")))]
    let r' := r.step 4 (.run (query .store))
    let late := r'.after [(5, .run (query .product)), (6, .answer 4 (.ok (rows "C")))]
    let once := (fresh 30 1).after [(0, .run (query .store)), (1, .answer 1 (.ok (rows "A"))),
      (20, .run (query .store))]
    (r.replay? 4 (query .store)).isSome = true ∧
    r.cache.entries.map (fun e => (e.query, e.insertedAt)) =
      [(query .store, 1), (query .channel, 3)] ∧
    r'.cache.entries.map (fun e => (e.query, e.insertedAt)) =
      [(query .channel, 3), (query .store, 4)] ∧
    (late.replay? 7 (query .store)).isSome = true ∧
    (late.replay? 7 (query .channel)).isSome = false ∧
    (once.replay? 40 (query .store)).isSome = true := by
  refine ⟨?_, ?_, ?_, ?_, ?_, ?_⟩ <;> decide +kernel

end SalesExplorer.Retriever
