import Mathlib.Tactic.Common
import SalesExplorer.Proofs.Result.Cache
import SalesExplorer.Proofs.Retrieval.History

/-!
# The successes behind the cache

A history shows a success where the answer of the latest request is one, or where a run is answered
from the cache. `successes` logs them, the latest first, since the cached results were last
forgotten.

**The cache is its log** (`cache_after`). Only a shown success enters the cache, and every one does.
So after every history the cache is an empty one with the successes of the log inserted, and what
holds of it is read off the log.

**Origin** (`mem_successes`, `retrieved_of_success?`). Every logged success comes from an event of
the history after which nothing was forgotten. One that was not replayed is the answer of the
backend to a request that waited and was the latest.

**Replayed rows** (`WellReplayed.exists_retrieved`). A replayed success has the rows of the latest
retrieved one for its query, because it was read from a cache that this log explains.
-/

namespace SalesExplorer.Retriever

open ResultCache

/-- A success as it was shown, and as it entered the cache. -/
structure Success extends ResultCache.Entry where
  /-- The number of the run that shows it. -/
  requestId : Nat
  /-- It is the answer of the cache, not of the backend. -/
  replayed : Bool

/-- The rows that a run gets at once, if it is accepted and answered from the cache. -/
def replay? (r : Retriever) (now : Nat) (q : Query) : Option (List Row) :=
  match r.run now q with
  | .ok (ticket, next) => if ticket.fromCache then next.state.rows else none
  | .error _ => none

/-- The success that an event shows, if it does. -/
def Event.success? (r : Retriever) (now : Nat) : Event → Option Success
  | .run q => (r.replay? now q).map fun rows => ⟨⟨q, rows, now⟩, r.state.requestId + 1, true⟩
  | .answer id (.ok rows) =>
    if id = r.state.requestId then
      (r.request? id).map fun p => ⟨⟨p.query, rows, now⟩, id, false⟩
    else none
  | _ => none

/-- The log after an event. -/
def Event.record (r : Retriever) (now : Nat) (log : List Success) : Event → List Success
  | .forget => []
  | e => (e.success? r now).toList ++ log

/-- The log after a history: the successes since the last time the cached results were forgotten,
the latest first. -/
def successes (r : Retriever) (log : List Success) : History → List Success
  | [] => log
  | e :: h => successes (r.step e.1 e.2) (e.2.record r e.1 log) h

variable {r r' : Retriever} {now id : Nat} {q : Query} {e : Event} {s : Success}
  {log : List Success} {rows : List Row}

theorem successes_append (r : Retriever) (log : List Success) (h k : History) :
    successes r log (h ++ k) = successes (r.after h) (successes r log h) k := by
  induction h generalizing r log with
  | nil => rfl
  | cons e h ih => exact ih _ _

theorem record_of_ne_forget (he : e ≠ .forget) :
    e.record r now log = (e.success? r now).toList ++ log := by
  cases e with
  | forget => exact absurd rfl he
  | _ => rfl

/-! ## Events that show a success -/

theorem replay?_eq_some_iff :
    r.replay? now q = some rows ↔ q.validate = .ok () ∧ r.cache.get? now q = some rows := by
  unfold replay?
  cases hq : q.validate with
  | error fault => simp [run_of_invalid hq]
  | ok =>
    cases hc : r.cache.get? now q with
    | none => simp [run_of_miss hq hc]
    | some rows' => simp [run_of_hit hq hc, RequestState.commit]

theorem replay?_of_miss (hc : r.cache.get? now q = none) : r.replay? now q = none := by
  rw [Option.eq_none_iff_forall_ne_some]
  intro rows hrows
  rw [(replay?_eq_some_iff.1 hrows).2] at hc
  cases hc

theorem isSome_replay?_iff :
    (r.replay? now q).isSome ↔ q.validate = .ok () ∧ (r.cache.get? now q).isSome := by
  simp only [Option.isSome_iff_exists, replay?_eq_some_iff, exists_and_left]

/-- A success enters the cache as it is shown, and nothing else does. -/
theorem Transition.cache (h : Transition r now e r') (he : e ≠ .forget) :
    r'.cache = match e.success? r now with
      | some s => r.cache.insert s.insertedAt s.query s.rows
      | none => r.cache := by
  cases h with
  | refused hq => simp [Event.success?, replay?, run_of_invalid hq]
  | replayed hq hc => simp [Event.success?, replay?_eq_some_iff.2 ⟨hq, hc⟩]
  | sent hq hc => simp [Event.success?, replay?_of_miss hc]
  | @unawaited id outcome hp => cases outcome <;> simp [Event.success?, hp]
  | @superseded id outcome p _ hid => cases outcome <;> simp [Event.success?, hid, abandon]
  | succeeded hp => simp [Event.success?, hp]
  | forgotten => exact absurd rfl he
  | _ => rfl

/-- What a success that was not replayed comes from: the answer to the latest request. -/
theorem retrieved_of_success? (h : e.success? r now = some s) (hs : s.replayed = false) :
    e = .answer s.requestId (.ok s.rows) ∧ s.requestId = r.state.requestId ∧
      r.request? s.requestId = some ⟨s.requestId, s.query⟩ ∧ s.insertedAt = now := by
  cases e with
  | run q =>
    obtain ⟨rows, -, rfl⟩ := Option.map_eq_some_iff.1 h
    cases hs
  | answer id outcome =>
    cases outcome with
    | error fault => cases h
    | ok rows =>
      by_cases hid : id = r.state.requestId
      · rw [Event.success?, if_pos hid] at h
        obtain ⟨p, hp, rfl⟩ := Option.map_eq_some_iff.1 h
        have hpid : p.id = id := (mem_pending_of_request? hp).2
        refine ⟨rfl, hid, ?_, rfl⟩
        rw [hp, ← hpid]
      · rw [Event.success?, if_neg hid] at h
        cases h
  | abandon id => cases h
  | forget => cases h

/-- What a replayed success comes from: a run that found its rows in the cache. -/
theorem found_of_success? (h : e.success? r now = some s) (hs : s.replayed = true) :
    e = .run s.query ∧ r.cache.get? now s.query = some s.rows ∧ s.insertedAt = now := by
  cases e with
  | run q =>
    obtain ⟨rows, hrows, rfl⟩ := Option.map_eq_some_iff.1 h
    exact ⟨rfl, (replay?_eq_some_iff.1 hrows).2, rfl⟩
  | answer id outcome =>
    cases outcome with
    | error fault => cases h
    | ok rows =>
      by_cases hid : id = r.state.requestId
      · rw [Event.success?, if_pos hid] at h
        obtain ⟨p, -, rfl⟩ := Option.map_eq_some_iff.1 h
        cases hs
      · rw [Event.success?, if_neg hid] at h
        cases h
  | abandon id => cases h
  | forget => cases h

theorem insertedAt_of_success? (h : e.success? r now = some s) : s.insertedAt = now := by
  cases hs : s.replayed with
  | false => exact (retrieved_of_success? h hs).2.2.2
  | true => exact (found_of_success? h hs).2.2

/-! ## The cache and its log -/

/-- Every replayed success of the log was found among those before it. -/
def WellReplayed (window capacity : Nat) : List Success → Prop
  | [] => True
  | s :: older =>
    (s.replayed = true →
      (filled window capacity (older.map (·.toEntry))).get? s.insertedAt s.query = some s.rows) ∧
    WellReplayed window capacity older

/-- The cache is an empty one with the successes of the log inserted. -/
structure Explains (window capacity : Nat) (log : List Success) (r : Retriever) : Prop where
  cache : r.cache = filled window capacity (log.map (·.toEntry))
  replayed : WellReplayed window capacity log

variable {window capacity : Nat}

theorem explains_fresh (window capacity : Nat) :
    Explains window capacity [] (fresh window capacity) :=
  ⟨rfl, trivial⟩

/-- **One step.** -/
theorem Transition.explains (ht : Transition r now e r') (h : Explains window capacity log r) :
    Explains window capacity (e.record r now log) r' := by
  by_cases he : e = .forget
  · subst he
    cases ht with
    | forgotten =>
      refine ⟨?_, trivial⟩
      show r.cache.clear = _
      rw [h.cache]
      exact clear_filled
  · have hcache := ht.cache he
    rw [record_of_ne_forget he]
    cases hs : e.success? r now with
    | none =>
      rw [hs] at hcache
      exact ⟨hcache.trans h.cache, h.replayed⟩
    | some s =>
      rw [hs] at hcache
      refine ⟨?_, fun hreplayed => ?_, h.replayed⟩
      · rw [hcache, h.cache]
        rfl
      · obtain ⟨-, hfound, hinstant⟩ := found_of_success? hs hreplayed
        rw [hinstant]
        exact h.cache ▸ hfound

/-- **A whole run.** -/
theorem Explains.after (h : Explains window capacity log r) (hist : History) :
    Explains window capacity (successes r log hist) (r.after hist) := by
  induction hist generalizing r log with
  | nil => exact h
  | cons e hist ih => exact ih ((transition_step r e.1 e.2).explains h)

/-- **The cache after a history is its log.** -/
theorem cache_after (window capacity : Nat) (h : History) :
    ((fresh window capacity).after h).cache =
      filled window capacity ((successes (fresh window capacity) [] h).map (·.toEntry)) :=
  ((explains_fresh window capacity).after h).cache

/-- What is found in the cache is the latest success for the query, within the window. -/
theorem Explains.latest (h : Explains window capacity log r) (hc : r.cache.get? now q = some rows) :
    ∃ s, log.find? (·.query == q) = some s ∧ s.rows = rows ∧ now - s.insertedAt < window := by
  rw [h.cache] at hc
  obtain ⟨e, hfind, hrows, hlive⟩ := latest_of_get?_filled hc
  rw [List.find?_map] at hfind
  obtain ⟨s, hs, rfl⟩ := Option.map_eq_some_iff.1 hfind
  exact ⟨s, hs, hrows, hlive⟩

/-- The rows of the latest success for a query are those of the latest retrieved one. -/
theorem WellReplayed.exists_retrieved (h : WellReplayed window capacity log)
    (hs : log.find? (·.query == q) = some s) :
    ∃ s', log.find? (fun x => x.query == q && !x.replayed) = some s' ∧ s'.rows = s.rows := by
  induction log generalizing s with
  | nil => cases hs
  | cons x log ih =>
    obtain ⟨hfound, htail⟩ := h
    by_cases hx : x.query = q
    · rw [List.find?_cons_of_pos (by simpa using hx)] at hs
      obtain rfl := Option.some.inj hs
      cases hrep : x.replayed with
      | false => exact ⟨x, List.find?_cons_of_pos (by simp [hx, hrep]), rfl⟩
      | true =>
        -- It was found among the successes before it, so the latest of these has its rows.
        obtain ⟨e, hfind, hrows, -⟩ := latest_of_get?_filled (hfound hrep)
        rw [List.find?_map, hx] at hfind
        obtain ⟨y, hy, rfl⟩ := Option.map_eq_some_iff.1 hfind
        obtain ⟨s', hs', hrows'⟩ := ih htail hy
        refine ⟨s', ?_, hrows'.trans hrows⟩
        rw [List.find?_cons_of_neg (by simp [hrep])]
        exact hs'
    · rw [List.find?_cons_of_neg (by simpa using hx)] at hs
      obtain ⟨s', hs', hrows'⟩ := ih htail hs
      refine ⟨s', ?_, hrows'⟩
      rw [List.find?_cons_of_neg (by simp [hx])]
      exact hs'

/-! ## The origin of a success -/

theorem mem_successes {h : History} (hs : s ∈ successes r log h) :
    (s ∈ log ∧ ∀ e ∈ h, e.2 ≠ .forget) ∨
      ∃ before e rest, h = before ++ e :: rest ∧
        e.2.success? (r.after before) e.1 = some s ∧ ∀ x ∈ rest, x.2 ≠ .forget := by
  induction h generalizing r log with
  | nil => exact Or.inl ⟨hs, fun e he => absurd he List.not_mem_nil⟩
  | cons e h ih =>
    rcases ih hs with ⟨hrecord, hrest⟩ | ⟨before, x, rest, rfl, hx, hrest⟩
    · by_cases he : e.2 = .forget
      · rw [he] at hrecord
        exact absurd hrecord List.not_mem_nil
      · rw [record_of_ne_forget he, List.mem_append, Option.mem_toList] at hrecord
        rcases hrecord with hnew | hold
        · exact Or.inr ⟨[], e, h, rfl, hnew, hrest⟩
        · exact Or.inl ⟨hold, List.forall_mem_cons.2 ⟨he, hrest⟩⟩
    · exact Or.inr ⟨e :: before, x, rest, rfl, hx, hrest⟩

end SalesExplorer.Retriever
