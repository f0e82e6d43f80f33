import Mathlib.Tactic.Common
import SalesExplorer.Proofs.Retrieval.History

/-!
# The latest accepted run decides the state

**Theorem (`latest_run_decides`).** After every history the visible state is that of the latest
accepted run: its number is the number of accepted runs, its query is the query of that run, and it
is loading until that run has an answer, from the cache or else from the backend, and shows exactly
this answer from then on. Without an accepted run the state is idle and empty.

The proof follows one run. `Shows` says what a retriever knows of a run that is still the latest:
the state shows how its request has ended, and the request waits exactly while it has not ended.
Every event but an accepted run keeps `Shows`, with the end that the event brings if there was none
before (`Transition.shows`). An answer to another request does not touch the state, and an answer
to this one counts only while it waits, so the first end is the one that stays.
-/

namespace SalesExplorer

/-- The state of a run with a number and a query: loading without an answer, else this answer. -/
def RequestState.showing (id : Nat) (q : Query) : Option (Except Fault (List Row)) → RequestState
  | none => ⟨.loading, some q, none, none, id⟩
  | some (.ok rows) => ⟨.success, some q, some rows, none, id⟩
  | some (.error fault) => ⟨.error, some q, none, some fault, id⟩

namespace Retriever

/-- How a request has ended: with an answer, or without one. -/
abbrev End := Option (Except Fault (List Row))

/-- How an event ends the request with a number, if it does. -/
def Event.end? (id : Nat) : Event → Option End
  | .answer i outcome => if i = id then some (some outcome) else none
  | .abandon i => if i = id then some none else none
  | _ => none

/-- The first end of a request in a history. -/
def firstEnd? (id : Nat) (h : History) : Option End := h.findSome? fun e => e.2.end? id

/-- The answer of a run: what the cache had for it, or else what the history after it brings. -/
def answerOf (hit : Option (List Row)) (id : Nat) (rest : History) :
    Option (Except Fault (List Row)) :=
  match hit with
  | some rows => some (.ok rows)
  | none => (firstEnd? id rest).join

variable {r r' : Retriever} {now id : Nat} {q : Query} {e : Event} {a : Option End}

theorem firstEnd?_cons (id : Nat) (e : Nat × Event) (h : History) :
    firstEnd? id (e :: h) = (e.2.end? id).or (firstEnd? id h) := by
  unfold firstEnd?
  rw [List.findSome?_cons]
  cases e.2.end? id <;> rfl

@[simp] theorem requestId_showing (id : Nat) (q : Query)
    (answer : Option (Except Fault (List Row))) :
    (RequestState.showing id q answer).requestId = id := by
  rcases answer with _ | _ | _ <;> rfl

theorem commit_showing (id : Nat) (q : Query) (outcome : Except Fault (List Row)) :
    (RequestState.showing id q none).commit outcome = .showing id q (some outcome) := by
  cases outcome <;> rfl

/-! ## Following one run -/

/-- The run with this number and query is the latest one, and its request has ended as told. -/
structure Shows (r : Retriever) (id : Nat) (q : Query) (a : Option End) : Prop where
  state : r.state = .showing id q a.join
  waits : r.request? id = none ↔ a ≠ none

theorem Shows.requestId (h : r.Shows id q a) : r.state.requestId = id := by
  rw [h.state, requestId_showing]

/-- An answer counts only for a request that waits, and ends it. -/
theorem Shows.commit (h : r.Shows id q a) {p : Request} (hp : r.request? id = some p)
    (outcome : Except Fault (List Row)) (cache : ResultCache) :
    Shows { r.abandon id with state := r.state.commit outcome, cache } id q
      (a.or (some (some outcome))) := by
  have ha : a = none := by
    by_contra hne
    rw [h.waits.2 hne] at hp
    exact nomatch hp
  subst ha
  refine ⟨?_, ?_⟩
  · show r.state.commit outcome = _
    rw [h.state]
    exact commit_showing id q outcome
  · show (r.abandon id).request? id = none ↔ _
    simp [request?_abandon]

/-- The end of a request without an answer: nothing is shown for it. -/
theorem Shows.abandon (h : r.Shows id q a) (i : Nat) :
    (r.abandon i).Shows id q (a.or (if i = id then some none else none)) := by
  by_cases hi : i = id
  · refine ⟨?_, ?_⟩
    · show r.state = _
      rw [h.state]
      cases a <;> simp [hi]
    · simp [request?_abandon, hi]
  · refine ⟨?_, ?_⟩
    · show r.state = _
      rw [h.state]
      simp [hi]
    · rw [request?_abandon, if_neg hi, if_neg hi, Option.or_none]
      exact h.waits

/-- **One step.** The latest run stays the latest, and its first end stays. -/
theorem Transition.shows (ht : Transition r now e r') (he : e.accepted? = none)
    (h : r.Shows id q a) : r'.Shows id q (a.or (e.end? id)) := by
  cases ht with
  | refused | forgotten =>
    show Shows _ id q (a.or none)
    rw [Option.or_none]
    exact ⟨h.state, h.waits⟩
  | replayed hq | sent hq => simp [accepted?_run_of_ok hq] at he
  | @unawaited i outcome hp =>
    have hkeep : a.or ((Event.answer i outcome).end? id) = a := by
      by_cases hi : i = id
      · subst hi
        obtain ⟨x, rfl⟩ := Option.ne_none_iff_exists'.1 (h.waits.1 hp)
        rfl
      · simp [Event.end?, hi]
    rw [hkeep]
    exact h
  | @superseded i outcome p _ hi =>
    rw [h.requestId] at hi
    simpa [Event.end?, hi] using h.abandon i
  | succeeded hp | failed hp =>
    have hid := h.requestId
    subst hid
    simpa [Event.end?] using h.commit hp _ _
  | @abandoned i => exact h.abandon i

/-- **A whole run.** Until the next accepted run, the first end is the one that is shown. -/
theorem Shows.after (h : r.Shows id q a) {rest : History} (hrest : accepted rest = []) :
    (r.after rest).Shows id q (a.or (firstEnd? id rest)) := by
  induction rest generalizing r a with
  | nil =>
    rw [firstEnd?, List.findSome?_nil, Option.or_none]
    exact h
  | cons e rest ih =>
    rw [accepted_cons, List.append_eq_nil_iff, Option.toList_eq_nil_iff] at hrest
    obtain ⟨he, hrest⟩ := hrest
    rw [after_cons, firstEnd?_cons, ← Option.or_assoc]
    exact ih ((transition_step r e.1 e.2).shows he h) hrest

/-- An accepted run is the latest one, and has ended where the cache answers it. -/
theorem shows_run (hr : r.Consistent) (now : Nat) (hq : q.validate = .ok ()) :
    (r.step now (.run q)).Shows (r.state.requestId + 1) q
      ((r.cache.get? now q).map fun rows => some (.ok rows)) := by
  cases hc : r.cache.get? now q with
  | some rows =>
    rw [step, run_of_hit hq hc]
    refine ⟨rfl, ?_⟩
    show r.request? (r.state.requestId + 1) = none ↔ _
    simp [hr.request?_succ]
  | none =>
    rw [step, run_of_miss hq hc]
    refine ⟨rfl, ?_⟩
    simp [request?]

/-! ## Settled states -/

/-- Only an accepted run changes a state that is not loading. -/
theorem Transition.state_of_settled (ht : Transition r now e r') (hr : r.Consistent)
    (hs : r.state.status ≠ .loading) (he : e.accepted? = none) : r'.state = r.state := by
  cases ht with
  | replayed hq | sent hq => simp [accepted?_run_of_ok hq] at he
  | succeeded hp | failed hp =>
    obtain ⟨hmem, hid⟩ := mem_pending_of_request? hp
    exact absurd (hr.latest _ hmem hid).1 hs
  | _ => rfl

theorem state_after_of_settled (hr : r.Consistent) (hs : r.state.status ≠ .loading)
    {rest : History} (hrest : accepted rest = []) : (r.after rest).state = r.state := by
  induction rest generalizing r with
  | nil => rfl
  | cons e rest ih =>
    rw [accepted_cons, List.append_eq_nil_iff, Option.toList_eq_nil_iff] at hrest
    obtain ⟨he, hrest⟩ := hrest
    have ht := transition_step r e.1 e.2
    have hstate := ht.state_of_settled hr hs he
    rw [after_cons, ih (ht.consistent hr) (by rw [hstate]; exact hs) hrest, hstate]

/-- An answer to a request that is not the visible one changes neither the state nor the cache. -/
theorem answer_of_ne (r : Retriever) (now : Nat) (outcome : Except Fault (List Row))
    (hid : id ≠ r.state.requestId) :
    (r.answer now id outcome).state = r.state ∧ (r.answer now id outcome).cache = r.cache := by
  have ht : Transition r now (.answer id outcome) (r.answer now id outcome) :=
    transition_step r now (.answer id outcome)
  generalize r.answer now id outcome = r' at ht
  cases ht with
  | unawaited | superseded => exact ⟨rfl, rfl⟩
  | succeeded | failed => exact absurd rfl hid

/-! ## The latest run -/

theorem exists_latest_run {h : History} (hne : accepted h ≠ []) :
    ∃ past rest now q, h = past ++ (now, .run q) :: rest ∧ q.validate = .ok () ∧
      accepted rest = [] := by
  induction h with
  | nil => exact absurd rfl hne
  | cons e h ih =>
    by_cases hrest : accepted h = []
    · obtain ⟨now, e⟩ := e
      rw [accepted_cons, hrest, List.append_nil, Ne, Option.toList_eq_nil_iff] at hne
      obtain ⟨q, he⟩ := Option.ne_none_iff_exists'.1 hne
      obtain ⟨rfl, hq⟩ := accepted?_eq_some_iff.1 he
      exact ⟨[], h, now, q, rfl, hq, hrest⟩
    · obtain ⟨past, rest, now, q, rfl, hq, hrest⟩ := ih hrest
      exact ⟨e :: past, rest, now, q, rfl, hq, hrest⟩

/-- An accepted run gets the next number, and its ticket tells whether the cache answered it. -/
theorem run_of_valid (r : Retriever) (now : Nat) (hq : q.validate = .ok ()) :
    ∃ next, r.run now q = .ok (⟨r.state.requestId + 1, (r.cache.get? now q).isSome⟩, next) := by
  cases hc : r.cache.get? now q with
  | some rows => exact ⟨_, run_of_hit hq hc⟩
  | none => exact ⟨_, run_of_miss hq hc⟩

/-- Until the next accepted run, the state shows the answer of this one. -/
theorem state_after_run (hr : r.Consistent) (now : Nat) (hq : q.validate = .ok ())
    {rest : History} (hrest : accepted rest = []) :
    ((r.step now (.run q)).after rest).state =
      .showing (r.state.requestId + 1) q
        (answerOf (r.cache.get? now q) (r.state.requestId + 1) rest) := by
  have hstate := ((shows_run hr now hq).after hrest).state
  cases hc : r.cache.get? now q <;> rw [hc] at hstate <;> exact hstate

/-- **The latest accepted run decides the state**, after every history. The state has the number of
the accepted runs; it is idle before the first one, and else shows the answer that the latest one
has got so far. An answer to any other request changes neither the state nor the cache, and a state
that is not loading lasts until the next accepted run. -/
theorem latest_run_decides (window capacity : Nat) (h : History) :
    let r := (fresh window capacity).after h
    let count := (accepted h).length
    r.state.requestId = count ∧
    (accepted h = [] → r.state = ⟨.idle, none, none, none, 0⟩) ∧
    (accepted h ≠ [] → ∃ past rest now q, h = past ++ (now, .run q) :: rest ∧
      q.validate = .ok () ∧ accepted rest = []) ∧
    (∀ (past rest : History) (now : Nat) (q : Query), h = past ++ (now, .run q) :: rest →
      q.validate = .ok () → accepted rest = [] →
      let before := (fresh window capacity).after past
      let hit := before.cache.get? now q
      (∃ next, before.run now q = .ok (⟨count, hit.isSome⟩, next)) ∧
      r.state = .showing count q (answerOf hit count rest)) ∧
    (∀ (now id : Nat) (outcome : Except Fault (List Row)), id ≠ count →
      (r.answer now id outcome).state = r.state ∧ (r.answer now id outcome).cache = r.cache) ∧
    (r.state.status ≠ .loading → ∀ rest : History, accepted rest = [] →
      (r.after rest).state = r.state) := by
  intro r count
  have hfresh := consistent_fresh window capacity
  have hcount : r.state.requestId = count := by
    show ((fresh window capacity).after h).state.requestId = (accepted h).length
    rw [requestId_after]
    exact Nat.zero_add _
  refine ⟨hcount, fun hnone => ?_, exists_latest_run, fun past rest now q hsplit hq hrest => ?_,
    fun now id outcome hid => ?_, fun hs rest hrest => ?_⟩
  · exact state_after_of_settled hfresh (fun hl => nomatch hl) hnone
  · intro before hit
    have hnext : before.state.requestId + 1 = count := by
      show before.state.requestId + 1 = (accepted h).length
      rw [requestId_after, hsplit, accepted_append, accepted_cons, accepted?_run_of_ok hq, hrest]
      simp [fresh]
    have hr : r = (before.step now (.run q)).after rest := by
      show (fresh window capacity).after h = _
      rw [hsplit, after_append, after_cons]
    refine ⟨?_, ?_⟩
    · rw [← hnext]
      exact run_of_valid before now hq
    · rw [hr, ← hnext]
      exact state_after_run (consistent_after hfresh past) now hq hrest
  · exact answer_of_ne r now outcome (by rw [hcount]; exact hid)
  · exact state_after_of_settled (consistent_after hfresh h) hs hrest

/-- An answer that was overtaken by a newer run does not show. -/
theorem latest_run_decides_overtaken :
    let q₁ : Query := { metrics := [.ofColumn "total_amount" .sum], dimensions := [.store] }
    let q₂ : Query := { metrics := [.ofColumn "sale_id" .count], dimensions := [.channel] }
    q₂.validate = .ok () ∧
    ((fresh 30 1).after [(0, .run q₁), (1, .run q₂), (5, .answer 2 (.ok [])),
      (7, .answer 1 (.error .notRunnable)), (9, .forget)]).state =
        ⟨.success, some q₂, some [], none, 2⟩ := by
  intro q₁ q₂
  have hq : q₂.validate = .ok () := by rfl
  obtain ⟨-, -, -, hrun, -, -⟩ := latest_run_decides 30 1 [(0, .run q₁), (1, .run q₂),
    (5, .answer 2 (.ok [])), (7, .answer 1 (.error .notRunnable)), (9, .forget)]
  exact ⟨hq, (hrun [(0, .run q₁)] _ 1 q₂ rfl hq rfl).2⟩

end Retriever

end SalesExplorer
