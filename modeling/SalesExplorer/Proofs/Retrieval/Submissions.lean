import Mathlib.Data.List.Nodup
import Mathlib.Tactic.Common
import SalesExplorer.Proofs.Retrieval.History

/-!
# What is sent to the backend

A history hands out a ticket for every accepted run (`tickets`) and sends requests to the backend
(`submissions`). A request counts as sent where it starts to wait for an answer.

**Tickets** (`tickets_eq`). There is one ticket for every accepted run, numbered one after another.

**Submissions** (`submissions_eq`). Exactly the runs that the cache did not answer are sent, each
once and under its own number, however many requests for the same query are still waiting.
-/

namespace SalesExplorer.Retriever

/-- What the events of a history bring, each in the state that it meets. -/
def collect {α : Type} (f : Retriever → Nat → Event → List α) (r : Retriever) : History → List α
  | [] => []
  | e :: h => f r e.1 e.2 ++ collect f (r.step e.1 e.2) h

/-- The ticket of an accepted run, and its query. -/
def Event.ticket? (r : Retriever) (now : Nat) : Event → Option (Ticket × Query)
  | .run q => match r.run now q with
    | .ok (ticket, _) => some (ticket, q)
    | .error _ => none
  | _ => none

/-- The requests that an event sends: they wait after it, and did not before. -/
def Event.sent (r : Retriever) (now : Nat) (e : Event) : List Request :=
  (r.step now e).pending.filter (· ∉ r.pending)

/-- The tickets of a history, in order. -/
def tickets (r : Retriever) (h : History) : List (Ticket × Query) :=
  collect (fun r now e => (e.ticket? r now).toList) r h

/-- The requests that a history sends to the backend, in order. -/
def submissions (r : Retriever) (h : History) : List Request :=
  collect (fun r now e => e.sent r now) r h

/-- The request behind a ticket; a run that the cache answered has none. -/
def requestOf (t : Ticket × Query) : Option Request :=
  if t.1.fromCache then none else some ⟨t.1.requestId, t.2⟩

variable {r r' : Retriever} {now : Nat} {q : Query} {e : Event}

theorem collect_append {α : Type} (f : Retriever → Nat → Event → List α) (r : Retriever)
    (h k : History) : collect f r (h ++ k) = collect f r h ++ collect f (r.after h) k := by
  induction h generalizing r with
  | nil => rfl
  | cons e h ih => simp only [List.cons_append, collect, ih, after_cons, List.append_assoc]

@[simp] theorem tickets_cons (r : Retriever) (e : Nat × Event) (h : History) :
    tickets r (e :: h) = (e.2.ticket? r e.1).toList ++ tickets (r.step e.1 e.2) h := rfl

@[simp] theorem submissions_cons (r : Retriever) (e : Nat × Event) (h : History) :
    submissions r (e :: h) = e.2.sent r e.1 ++ submissions (r.step e.1 e.2) h := rfl

theorem submissions_append (r : Retriever) (h k : History) :
    submissions r (h ++ k) = submissions r h ++ submissions (r.after h) k :=
  collect_append _ r h k

/-! ## Tickets -/

theorem ticket?_of_invalid {fault : Fault} (hq : q.validate = .error fault) :
    (Event.run q).ticket? r now = none := by
  rw [Event.ticket?, run_of_invalid hq]

theorem ticket?_of_hit {rows : List Row} (hq : q.validate = .ok ())
    (hc : r.cache.get? now q = some rows) :
    (Event.run q).ticket? r now = some (⟨r.state.requestId + 1, true⟩, q) := by
  rw [Event.ticket?, run_of_hit hq hc]

theorem ticket?_of_miss (hq : q.validate = .ok ()) (hc : r.cache.get? now q = none) :
    (Event.run q).ticket? r now = some (⟨r.state.requestId + 1, false⟩, q) := by
  rw [Event.ticket?, run_of_miss hq hc]

/-- Only an accepted run has a ticket: the next number, for its query. -/
theorem Transition.ticket? (h : Transition r now e r') :
    (e.ticket? r now).map (fun t => (t.1.requestId, t.2)) =
      e.accepted?.map (fun q => (r.state.requestId + 1, q)) := by
  cases h with
  | refused hq => rw [ticket?_of_invalid hq, accepted?_run_of_error hq]; rfl
  | replayed hq hc => rw [ticket?_of_hit hq hc, accepted?_run_of_ok hq]; rfl
  | sent hq hc => rw [ticket?_of_miss hq hc, accepted?_run_of_ok hq]; rfl
  | _ => rfl

/-- **One ticket for every accepted run**, with the number and the query of the run. -/
theorem tickets_eq (r : Retriever) (h : History) :
    (tickets r h).map (fun t => (t.1.requestId, t.2)) =
      (List.range' (r.state.requestId + 1) (accepted h).length).zip (accepted h) := by
  induction h generalizing r with
  | nil => rfl
  | cons e h ih =>
    have ht := transition_step r e.1 e.2
    have hticket := ht.ticket?
    rw [tickets_cons, List.map_append, ih, ht.requestId, accepted_cons, ← Option.toList_map,
      hticket]
    cases e.2.accepted? with
    | none => rfl
    | some q => simp [List.range'_succ]

/-! ## Submissions -/

/-- An event sends the request behind its ticket, and no other one. -/
theorem Transition.sent_eq (h : Transition r now e r') (hr : r.Consistent) :
    r'.pending.filter (· ∉ r.pending) = ((e.ticket? r now).bind requestOf).toList := by
  have hold : r.pending.filter (· ∉ r.pending) = [] := by simp
  have hleft (id : Nat) : (r.abandon id).pending.filter (· ∉ r.pending) = [] := by
    simp only [List.filter_eq_nil_iff, decide_eq_true_eq, not_not]
    intro p hp
    exact (List.mem_filter.1 hp).1
  cases h with
  | refused hq =>
    rw [ticket?_of_invalid hq]
    exact hold
  | replayed hq hc =>
    rw [ticket?_of_hit hq hc]
    exact hold
  | @sent q hq hc =>
    rw [ticket?_of_miss hq hc]
    have hnew : (⟨r.state.requestId + 1, q⟩ : Request) ∉ r.pending := by
      intro hmem
      exact request?_eq_none.1 hr.request?_succ _ hmem rfl
    simp only [List.filter_append, hold, List.nil_append]
    simp [hnew, requestOf]
  | unawaited | forgotten => exact hold
  | superseded | abandoned => exact hleft _
  | succeeded | failed => exact hleft _

/-- **The runs that the cache did not answer are sent**, each once under its own number. -/
theorem submissions_eq (hr : r.Consistent) (h : History) :
    submissions r h = (tickets r h).filterMap requestOf := by
  induction h generalizing r with
  | nil => rfl
  | cons e h ih =>
    have ht := transition_step r e.1 e.2
    rw [submissions_cons, tickets_cons, List.filterMap_append, ih (ht.consistent hr), Event.sent,
      ht.sent_eq hr]
    cases e.2.ticket? r e.1 with
    | none => rfl
    | some t => cases hreq : requestOf t <;> simp [hreq]

theorem lt_id_of_mem_submissions (hr : r.Consistent) {h : History} {p : Request}
    (hp : p ∈ submissions r h) : r.state.requestId < p.id := by
  rw [submissions_eq hr, List.mem_filterMap] at hp
  obtain ⟨t, ht, hreq⟩ := hp
  have hmem : (t.1.requestId, t.2) ∈ (tickets r h).map (fun t => (t.1.requestId, t.2)) :=
    List.mem_map.2 ⟨t, ht, rfl⟩
  rw [tickets_eq] at hmem
  have hrange := List.mem_range'_1.1 (List.of_mem_zip hmem).1
  have hid : p.id = t.1.requestId := by
    unfold requestOf at hreq
    split at hreq
    · cases hreq
    · rw [← Option.some.inj hreq]
  omega

theorem mem_pending_after {p : Request} {h : History} (hp : p ∈ (r.after h).pending) :
    p ∈ r.pending ∨ p ∈ submissions r h := by
  induction h generalizing r with
  | nil => exact Or.inl hp
  | cons e h ih =>
    rw [submissions_cons, List.mem_append]
    rcases ih hp with hp | hp
    · by_cases hold : p ∈ r.pending
      · exact Or.inl hold
      · exact Or.inr (Or.inl (List.mem_filter.2 ⟨hp, decide_eq_true hold⟩))
    · exact Or.inr (Or.inr hp)

end SalesExplorer.Retriever
