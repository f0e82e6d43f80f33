import Mathlib.Tactic.Common
import SalesExplorer.Proofs.Retrieval.LatestRun
import SalesExplorer.Proofs.Retrieval.Submissions
import SalesExplorer.Proofs.Retrieval.Successes

/-!
# What a run gets from the cache

**Theorem (`replays_latest_success`).** After every history, a run that the cache answers gets the
rows of the latest success for its query since the cached results were forgotten, and the backend
answered these rows to a request for that query which was the latest one. Overtaken answers and
failures do not enter the cache. The runs that the cache does not answer are sent to the backend,
each once, and no others. A cache for one entry answers exactly the query of the latest success of
all, as long as the window lasts, and a cache without place or window answers nothing.

Everything is read off the log that explains the cache (`cache_after`). That this log is the right
one is part of the theorem: an event that is logged shows its success (`state_of_success?`), and no
other event turns the state to a success (`state_of_no_success`).
-/

namespace SalesExplorer.Retriever

open ResultCache

/-- The backend answered these rows to a request for this query that waited and was the latest, and
nothing was forgotten since. -/
def RetrievedSince (start : Retriever) (h : History) (s : Success) : Prop :=
  ∃ before rest, h = before ++ (s.insertedAt, .answer s.requestId (.ok s.rows)) :: rest ∧
    (start.after before).state.requestId = s.requestId ∧
    (start.after before).request? s.requestId = some ⟨s.requestId, s.query⟩ ∧
    ∀ e ∈ rest, e.2 ≠ .forget

variable {r r' next : Retriever} {now window capacity : Nat} {q : Query} {e : Event} {s : Success}
  {rows : List Row} {h : History}

/-! ## What the log lists -/

/-- A logged success is what the state shows after its event. -/
theorem Transition.state_of_success? (ht : Transition r now e r') (hr : r.Consistent)
    (hs : e.success? r now = some s) :
    r'.state = .showing s.requestId s.query (some (.ok s.rows)) := by
  cases ht with
  | refused hq => simp [Event.success?, replay?, run_of_invalid hq] at hs
  | replayed hq hc =>
    simp only [Event.success?, replay?_eq_some_iff.2 ⟨hq, hc⟩, Option.map_some,
      Option.some.injEq] at hs
    subst hs
    rfl
  | sent hq hc => simp [Event.success?, replay?_of_miss hc] at hs
  | @unawaited id outcome hp => cases outcome <;> simp [Event.success?, hp] at hs
  | @superseded id outcome p _ hid => cases outcome <;> simp [Event.success?, hid] at hs
  | succeeded hp =>
    simp only [Event.success?, if_true, hp, Option.map_some, Option.some.injEq] at hs
    subst hs
    obtain ⟨hmem, hid⟩ := mem_pending_of_request? hp
    have hquery := (hr.latest _ hmem hid).2
    simp only [RequestState.commit, RequestState.showing, hquery]
  | failed | abandoned | forgotten => cases hs

/-- An event without a logged success does not turn the state to one. -/
theorem Transition.state_of_no_success (ht : Transition r now e r')
    (hs : e.success? r now = none) (hstatus : r'.state.status = .success) :
    r'.state = r.state := by
  cases ht with
  | replayed hq hc => simp [Event.success?, replay?_eq_some_iff.2 ⟨hq, hc⟩] at hs
  | succeeded hp => simp [Event.success?, hp] at hs
  | sent | failed => cases hstatus
  | _ => rfl

/-! ## Where replayed rows come from -/

/-- A logged success that was not replayed was retrieved in the history. -/
theorem retrievedSince_of_mem (hs : s ∈ successes r [] h) (hnew : s.replayed = false) :
    RetrievedSince r h s := by
  rcases mem_successes hs with ⟨hnil, -⟩ | ⟨before, e, rest, hsplit, hsuccess, hrest⟩
  · exact absurd hnil List.not_mem_nil
  · obtain ⟨hevent, hid, hp, hinstant⟩ := retrieved_of_success? hsuccess hnew
    refine ⟨before, rest, ?_, hid.symm, hp, hrest⟩
    rw [hsplit, hinstant, ← hevent]

/-- A logged success was shown at the instant of some event. -/
theorem exists_instant_of_mem (hs : s ∈ successes r [] h) : ∃ e ∈ h, e.1 = s.insertedAt := by
  rcases mem_successes hs with ⟨hnil, -⟩ | ⟨before, e, rest, rfl, hsuccess, -⟩
  · exact absurd hnil List.not_mem_nil
  · exact ⟨e, List.mem_append_right _ List.mem_cons_self, (insertedAt_of_success? hsuccess).symm⟩

/-- What is replayed was retrieved for the same query: the latest retrieval for it. -/
theorem Explains.latest_retrieved {log : List Success} (hlog : Explains window capacity log r)
    (hrows : r.replay? now q = some rows) :
    ∃ s, log.find? (fun x => x.query == q && !x.replayed) = some s ∧
      s.query = q ∧ s.replayed = false ∧ s.rows = rows := by
  obtain ⟨s, hs, hsrows, -⟩ := hlog.latest (replay?_eq_some_iff.1 hrows).2
  obtain ⟨s', hs', hsrows'⟩ := hlog.replayed.exists_retrieved hs
  have hkind := List.find?_some hs'
  rw [Bool.and_eq_true, beq_iff_eq, Bool.not_eq_true'] at hkind
  exact ⟨s', hs', hkind.1, hkind.2, hsrows'.trans hsrows⟩

/-! ## Who is answered from the cache -/

theorem fromCache_of_run {ticket : Ticket} (hrun : r.run now q = .ok (ticket, next)) :
    ticket.fromCache = (r.replay? now q).isSome := by
  have hq : q.validate = .ok () := by
    cases hq : q.validate with
    | ok => rfl
    | error fault =>
      rw [run_of_invalid hq] at hrun
      cases hrun
  obtain ⟨next', hrun'⟩ := run_of_valid r now hq
  rw [hrun] at hrun'
  obtain ⟨rfl, -⟩ := Prod.mk.inj (Except.ok.inj hrun')
  rw [Bool.eq_iff_iff, isSome_replay?_iff]
  exact ⟨fun hhit => ⟨hq, hhit⟩, And.right⟩

theorem cache_answer_of_error (r : Retriever) (now id : Nat) (fault : Fault) :
    (r.answer now id (.error fault)).cache = r.cache :=
  (transition_step r now (.answer id (.error fault))).cache (by simp)

/-- A cache for one entry answers the query of the latest success of all, within the window. -/
theorem isSome_get?_capacity_one (window : Nat) (h : History) (now : Nat) (q : Query) :
    (((fresh window 1).after h).cache.get? now q).isSome ↔
      ∃ s, (successes (fresh window 1) [] h).head? = some s ∧ s.query = q ∧
        now - s.insertedAt < window := by
  rw [cache_after, Option.isSome_iff_exists]
  generalize successes (fresh window 1) [] h = log
  have hsound := sound_filled window 1 (log.map (·.toEntry))
  have hentries : (filled window 1 (log.map (·.toEntry))).entries =
      (log.head?.map (·.toEntry)).toList := by
    rw [entries_filled_one, List.head?_map]
  constructor
  · rintro ⟨rows, hfound⟩
    obtain ⟨e, he, hquery, -, hlive⟩ := (get?_eq_some_iff hsound).1 hfound
    rw [hentries, Option.mem_toList, Option.map_eq_some_iff] at he
    rw [isLive_iff, window_filled] at hlive
    obtain ⟨s, hs, rfl⟩ := he
    exact ⟨s, hs, hquery, hlive⟩
  · rintro ⟨s, hs, hquery, hlive⟩
    refine ⟨s.rows, (get?_eq_some_iff hsound).2 ⟨s.toEntry, ?_, hquery, rfl, ?_⟩⟩
    · rw [hentries, hs]
      exact List.mem_singleton_self _
    · rw [isLive_iff, window_filled]
      exact hlive

theorem isSome_replay?_single (h : History) (hcap : capacity = 1) (now : Nat) (q : Query)
    (hwindow : ∀ e ∈ h, now - e.1 < window) (hq : q.validate = .ok ()) :
    (((fresh window capacity).after h).replay? now q).isSome ↔
      ∃ s, (successes (fresh window capacity) [] h).head? = some s ∧ s.query = q := by
  subst hcap
  rw [isSome_replay?_iff, isSome_get?_capacity_one]
  constructor
  · rintro ⟨-, s, hs, hquery, -⟩
    exact ⟨s, hs, hquery⟩
  · rintro ⟨s, hs, hquery⟩
    refine ⟨hq, s, hs, hquery, ?_⟩
    obtain ⟨e, he, hinstant⟩ := exists_instant_of_mem (List.mem_of_head? hs)
    rw [← hinstant]
    exact hwindow e he

theorem get?_eq_none_of_closed (hclosed : capacity = 0 ∨ window = 0) (h : History) (now : Nat)
    (q : Query) : ((fresh window capacity).after h).cache.get? now q = none := by
  rw [cache_after, Option.eq_none_iff_forall_ne_some]
  intro rows hfound
  have hsound := sound_filled window capacity
    ((successes (fresh window capacity) [] h).map (·.toEntry))
  obtain ⟨e, he, -, -, hlive⟩ := (get?_eq_some_iff hsound).1 hfound
  rcases hclosed with hcap | hwindow
  · have hne := hsound.capacity_ne_zero he
    rw [capacity_filled] at hne
    exact hne hcap
  · rw [isLive_iff, window_filled, hwindow] at hlive
    exact Nat.not_lt_zero _ hlive

/-- What the runs after a history get from the cache. -/
structure Replays (start : Retriever) (h : History) : Prop where
  logged : ∀ (now : Nat) (e : Event), match e.success? (start.after h) now with
    | some s =>
      ((start.after h).step now e).state = .showing s.requestId s.query (some (.ok s.rows))
    | none => ((start.after h).step now e).state.status = .success →
      ((start.after h).step now e).state = (start.after h).state
  fromCache : ∀ (now : Nat) (q : Query) (ticket : Ticket) (next : Retriever),
    (start.after h).run now q = .ok (ticket, next) →
    ticket.fromCache = ((start.after h).replay? now q).isSome
  latest : ∀ (now : Nat) (q : Query) (rows : List Row),
    (start.after h).replay? now q = some rows →
    ∃ s, (successes start [] h).find? (·.query == q) = some s ∧ s.rows = rows
  retrieved : ∀ (now : Nat) (q : Query) (rows : List Row),
    (start.after h).replay? now q = some rows →
    ∃ s, RetrievedSince start h s ∧ s.query = q ∧ s.rows = rows
  unkept : ∀ (now id : Nat) (outcome : Except Fault (List Row)),
    (id ≠ (start.after h).state.requestId ∨ ∃ fault, outcome = .error fault) →
    ((start.after h).answer now id outcome).cache = (start.after h).cache
  numbered : (tickets start h).map (fun t => (t.1.requestId, t.2)) =
    (List.range' 1 (accepted h).length).zip (accepted h)
  submitted : submissions start h = (tickets start h).filterMap requestOf
  single : start.cache.capacity = 1 → ∀ (now : Nat) (q : Query),
    (∀ e ∈ h, now - e.1 < start.cache.window) → q.validate = .ok () →
    (((start.after h).replay? now q).isSome ↔
      ∃ s, (successes start [] h).head? = some s ∧ s.query = q)
  closed : start.cache.capacity = 0 ∨ start.cache.window = 0 → ∀ (now : Nat) (q : Query),
    (start.after h).replay? now q = none

/-- **What a run gets from the cache**, after every history. -/
theorem replays_latest_success (window capacity : Nat) (h : History) :
    Replays (fresh window capacity) h := by
  have hlog := (explains_fresh window capacity).after h
  have hconsistent := consistent_after (consistent_fresh window capacity) h
  exact {
    logged := fun now e => by
      have ht := transition_step ((fresh window capacity).after h) now e
      cases hs : e.success? ((fresh window capacity).after h) now with
      | some s => exact ht.state_of_success? hconsistent hs
      | none => exact ht.state_of_no_success hs
    fromCache := fun now q ticket next => fromCache_of_run
    latest := fun now q rows hrows => by
      obtain ⟨s, hs, hsrows, -⟩ := hlog.latest (replay?_eq_some_iff.1 hrows).2
      exact ⟨s, hs, hsrows⟩
    retrieved := fun now q rows hrows => by
      obtain ⟨s, hs, hquery, hnew, hsrows⟩ := hlog.latest_retrieved hrows
      exact ⟨s, retrievedSince_of_mem (List.mem_of_find?_eq_some hs) hnew, hquery, hsrows⟩
    unkept := fun now id outcome hdrop => by
      rcases hdrop with hid | ⟨fault, rfl⟩
      · exact (answer_of_ne _ now outcome hid).2
      · exact cache_answer_of_error _ now id fault
    numbered := tickets_eq _ h
    submitted := submissions_eq (consistent_fresh window capacity) h
    single := isSome_replay?_single h
    closed := fun hclosed now q => replay?_of_miss (get?_eq_none_of_closed hclosed h now q) }

/-- A query that was answered is replayed with these rows, unless the cache has no place. -/
theorem replays_latest_success_twice :
    let q : Query := { metrics := [.ofColumn "total_amount" .sum], dimensions := [.store] }
    let rows : List Row := [[("store_name", .str "A"), ("sum_total_amount", .int 120)]]
    let h : History := [(0, .run q), (5, .answer 1 (.ok rows)), (6, .answer 1 (.ok []))]
    let r := (fresh 30 1).after h
    q.validate = .ok () ∧
    (∃ next, r.run 9 q = .ok (⟨2, true⟩, next) ∧ (r.replay? 9 q).isSome) ∧
    r.replay? 9 q = some rows ∧
    (∃ s, RetrievedSince (fresh 30 1) h s ∧ s.query = q ∧ s.rows = rows) ∧
    (∃ s, (successes (fresh 30 1) [] h).head? = some s ∧ s.query = q) ∧
    (r.answer 9 1 (.error .notRunnable)).cache = r.cache ∧
    ((fresh 30 0).after h).replay? 9 q = none := by
  intro q rows h r
  have hq : q.validate = .ok () := by rfl
  have hrows : r.replay? 9 q = some rows := by rfl
  have hreplays := replays_latest_success 30 1 h
  have hlast : ∀ e ∈ h, 9 - e.1 < 30 := by
    intro e he
    omega
  obtain ⟨next, hrun⟩ : ∃ next, r.run 9 q = .ok (⟨2, true⟩, next) := ⟨_, rfl⟩
  have hhit : (r.replay? 9 q).isSome := (hreplays.fromCache 9 q _ _ hrun).symm
  exact ⟨hq, ⟨next, hrun, hhit⟩, hrows, hreplays.retrieved 9 q rows hrows,
    (hreplays.single rfl 9 q hlast hq).1 hhit, hreplays.unkept 9 1 _ (Or.inr ⟨_, rfl⟩),
    (replays_latest_success 30 0 h).closed (Or.inl rfl) 9 q⟩

end SalesExplorer.Retriever
