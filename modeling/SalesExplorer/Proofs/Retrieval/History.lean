import Mathlib.Tactic.Common
import SalesExplorer.Result.Retrieval

/-!
# Histories of a retriever

A history lists what happened to a retriever, every event with its instant: runs, answers of the
backend, requests that ended without one, and requests to forget. Nothing is assumed of the
instants or of the order, so an answer may come after any delay, overtake another one, or be one
that nobody waits for.

**Steps** (`transition_step`). `Transition` says once what an event can do to a retriever, with the
condition for each outcome. What holds along all histories is proved by cases on it.

**Invariant** (`consistent_after`). No request that waits is newer than the visible one, and while
the visible one waits, the state is loading and shows the query of that request.

**Numbers** (`requestId_after`). The visible request has the number of the runs accepted so far.
-/

namespace SalesExplorer.Retriever

/-- What can happen to a retriever. -/
inductive Event where
  | run (q : Query)
  | answer (id : Nat) (outcome : Except Fault (List Row))
  | abandon (id : Nat)
  | forget

/-- Events with their instants, the earliest first. -/
abbrev History := List (Nat × Event)

/-- The query of a run that is accepted. -/
def Event.accepted? : Event → Option Query
  | .run q => if q.validate.isOk then some q else none
  | _ => none

/-- The queries of the accepted runs, in order. -/
def accepted (h : History) : List Query := h.filterMap fun e => e.2.accepted?

/-- The retriever after one event; a refused run leaves it as it was. -/
def step (r : Retriever) (now : Nat) : Event → Retriever
  | .run q => match r.run now q with
    | .ok (_, next) => next
    | .error _ => r
  | .answer id outcome => r.answer now id outcome
  | .abandon id => r.abandon id
  | .forget => r.forget

/-- The retriever after a history. -/
def after (r : Retriever) (h : History) : Retriever := h.foldl (fun r e => r.step e.1 e.2) r

/-- A retriever that nothing has happened to. -/
def fresh (window capacity : Nat) : Retriever := { cache := { window, capacity } }

variable {r r' : Retriever} {now id : Nat} {q : Query} {e : Event}

@[simp] theorem after_nil (r : Retriever) : r.after [] = r := rfl

@[simp] theorem after_cons (r : Retriever) (e : Nat × Event) (h : History) :
    r.after (e :: h) = (r.step e.1 e.2).after h := rfl

theorem after_append (r : Retriever) (h k : History) : r.after (h ++ k) = (r.after h).after k :=
  List.foldl_append

@[simp] theorem accepted_append (h k : History) : accepted (h ++ k) = accepted h ++ accepted k :=
  List.filterMap_append

@[simp] theorem accepted_cons (e : Nat × Event) (h : History) :
    accepted (e :: h) = e.2.accepted?.toList ++ accepted h := by
  unfold accepted
  rw [List.filterMap_cons]
  cases e.2.accepted? <;> rfl

theorem accepted?_run_of_ok (hq : q.validate = .ok ()) : (Event.run q).accepted? = some q := by
  simp [Event.accepted?, hq, Except.isOk, Except.toBool]

theorem accepted?_run_of_error {fault : Fault} (hq : q.validate = .error fault) :
    (Event.run q).accepted? = none := by
  simp [Event.accepted?, hq, Except.isOk, Except.toBool]

theorem accepted?_eq_some_iff : e.accepted? = some q ↔ e = .run q ∧ q.validate = .ok () := by
  cases e with
  | run q' =>
    cases hq : q'.validate with
    | ok =>
      rw [accepted?_run_of_ok hq, Option.some_inj, Event.run.injEq]
      constructor
      · rintro rfl
        exact ⟨rfl, hq⟩
      · exact And.left
    | error fault =>
      rw [accepted?_run_of_error hq, Event.run.injEq]
      constructor
      · exact fun h => nomatch h
      · rintro ⟨rfl, hok⟩
        rw [hq] at hok
        exact nomatch hok
  | _ => simp [Event.accepted?]

/-! ## Runs -/

theorem run_of_invalid {fault : Fault} (hq : q.validate = .error fault) :
    r.run now q = .error fault := by
  simp [run, hq, bind, Except.bind]

theorem run_of_hit {rows : List Row} (hq : q.validate = .ok ())
    (hc : r.cache.get? now q = some rows) :
    r.run now q = .ok (⟨r.state.requestId + 1, true⟩,
      { r with state := (r.state.issue q).commit (.ok rows), cache := r.cache.insert now q rows }) := by
  simp [run, hq, hc, bind, Except.bind, pure, Except.pure, complete, RequestState.issue]

theorem run_of_miss (hq : q.validate = .ok ()) (hc : r.cache.get? now q = none) :
    r.run now q = .ok (⟨r.state.requestId + 1, false⟩,
      { r with state := r.state.issue q, pending := r.pending ++ [⟨r.state.requestId + 1, q⟩] }) := by
  simp [run, hq, hc, bind, Except.bind, pure, Except.pure, RequestState.issue]

/-! ## Requests that wait -/

theorem mem_pending_of_request? {p : Request} (h : r.request? id = some p) :
    p ∈ r.pending ∧ p.id = id :=
  ⟨List.mem_of_find?_eq_some h, by simpa using List.find?_some h⟩

theorem request?_eq_none : r.request? id = none ↔ ∀ p ∈ r.pending, p.id ≠ id := by
  simp [request?]

theorem request?_abandon (r : Retriever) (i id : Nat) :
    (r.abandon i).request? id = if i = id then none else r.request? id := by
  unfold request? abandon
  rw [List.find?_filter]
  split_ifs with h
  · subst h
    simp
  · congr 1
    funext p
    by_cases hp : p.id = id
    · simp [hp, Ne.symm h]
    · simp [hp]

/-! ## What an event can do -/

/-- The retriever `r'` comes from `r` by an event. -/
inductive Transition (r : Retriever) (now : Nat) : Event → Retriever → Prop
  | refused {q : Query} {fault : Fault} : q.validate = .error fault → Transition r now (.run q) r
  | replayed {q : Query} {rows : List Row} : q.validate = .ok () → r.cache.get? now q = some rows →
      Transition r now (.run q)
        { r with state := (r.state.issue q).commit (.ok rows), cache := r.cache.insert now q rows }
  | sent {q : Query} : q.validate = .ok () → r.cache.get? now q = none →
      Transition r now (.run q)
        { r with state := r.state.issue q, pending := r.pending ++ [⟨r.state.requestId + 1, q⟩] }
  | unawaited {id : Nat} {outcome : Except Fault (List Row)} : r.request? id = none →
      Transition r now (.answer id outcome) r
  | superseded {id : Nat} {outcome : Except Fault (List Row)} {p : Request} :
      r.request? id = some p → id ≠ r.state.requestId →
      Transition r now (.answer id outcome) (r.abandon id)
  | succeeded {rows : List Row} {p : Request} : r.request? r.state.requestId = some p →
      Transition r now (.answer r.state.requestId (.ok rows))
        { r.abandon r.state.requestId with
          state := r.state.commit (.ok rows), cache := r.cache.insert now p.query rows }
  | failed {fault : Fault} {p : Request} : r.request? r.state.requestId = some p →
      Transition r now (.answer r.state.requestId (.error fault))
        { r.abandon r.state.requestId with state := r.state.commit (.error fault) }
  | abandoned {id : Nat} : Transition r now (.abandon id) (r.abandon id)
  | forgotten : Transition r now .forget { r with cache := r.cache.clear }

theorem transition_step (r : Retriever) (now : Nat) (e : Event) :
    Transition r now e (r.step now e) := by
  cases e with
  | run q =>
    cases hq : q.validate with
    | error fault =>
      rw [step, run_of_invalid hq]
      exact .refused hq
    | ok =>
      cases hc : r.cache.get? now q with
      | some rows =>
        rw [step, run_of_hit hq hc]
        exact .replayed hq hc
      | none =>
        rw [step, run_of_miss hq hc]
        exact .sent hq hc
  | answer id outcome =>
    cases hp : r.request? id with
    | none =>
      rw [step, answer, hp]
      exact .unawaited hp
    | some p =>
      obtain ⟨-, hid⟩ := mem_pending_of_request? hp
      rw [step, answer, hp]
      by_cases h : id = r.state.requestId
      · subst h
        cases outcome with
        | ok rows => simpa [complete, abandon, hid] using @Transition.succeeded r now rows p hp
        | error fault => simpa [complete, abandon, hid] using @Transition.failed r now fault p hp
      · have hne : ¬ r.state.requestId = p.id := fun h' => h (by rw [h', hid])
        simpa [complete, abandon, hne] using @Transition.superseded r now id outcome p hp h
  | abandon id => exact .abandoned
  | forget => exact .forgotten

/-! ## Numbers -/

@[simp] theorem requestId_issue (s : RequestState) (q : Query) :
    (s.issue q).requestId = s.requestId + 1 := rfl

@[simp] theorem requestId_commit (s : RequestState) (outcome : Except Fault (List Row)) :
    (s.commit outcome).requestId = s.requestId := by
  cases outcome <;> rfl

theorem Transition.requestId (h : Transition r now e r') :
    r'.state.requestId = r.state.requestId + e.accepted?.toList.length := by
  cases h with
  | refused hq => simp [accepted?_run_of_error hq]
  | replayed hq _ => simp [accepted?_run_of_ok hq]
  | sent hq _ => simp [accepted?_run_of_ok hq]
  | _ => simp [Event.accepted?, abandon]

/-- **The visible request is numbered by the accepted runs.** -/
theorem requestId_after (r : Retriever) (h : History) :
    (r.after h).state.requestId = r.state.requestId + (accepted h).length := by
  induction h generalizing r with
  | nil => simp [accepted]
  | cons e h ih =>
    rw [after_cons, ih, (transition_step r e.1 e.2).requestId, accepted_cons, List.length_append,
      Nat.add_assoc]

/-! ## The invariant -/

/-- No request that waits is newer than the visible one; while the visible one waits, the state is
loading and shows its query. -/
structure Consistent (r : Retriever) : Prop where
  id_le : ∀ p ∈ r.pending, p.id ≤ r.state.requestId
  latest : ∀ p ∈ r.pending, p.id = r.state.requestId →
    r.state.status = .loading ∧ r.state.query = some p.query

theorem consistent_fresh (window capacity : Nat) : (fresh window capacity).Consistent :=
  ⟨fun _ hp => absurd hp List.not_mem_nil, fun _ hp => absurd hp List.not_mem_nil⟩

theorem Consistent.request?_succ (hr : r.Consistent) : r.request? (r.state.requestId + 1) = none :=
  request?_eq_none.2 fun p hp => by
    have := hr.id_le p hp
    omega

theorem Consistent.abandon (hr : r.Consistent) (id : Nat) : (r.abandon id).Consistent :=
  ⟨fun p hp => hr.id_le p ((List.mem_filter.1 hp).1),
    fun p hp => hr.latest p ((List.mem_filter.1 hp).1)⟩

/-- Once the visible request has ended, the state may change as long as the number stays. -/
theorem Consistent.close (hr : r.Consistent) (s : RequestState) (cache : ResultCache)
    (hs : s.requestId = r.state.requestId) :
    Consistent { r.abandon r.state.requestId with state := s, cache } := by
  refine ⟨fun p hp => ?_, fun p hp hid => ?_⟩
  · rw [hs]
    exact hr.id_le p ((List.mem_filter.1 hp).1)
  · have hne := (List.mem_filter.1 hp).2
    simp [hid, hs] at hne

theorem Transition.consistent (h : Transition r now e r') (hr : r.Consistent) : r'.Consistent := by
  cases h with
  | refused | unawaited => exact hr
  | superseded | abandoned => exact hr.abandon _
  | forgotten => exact ⟨hr.id_le, hr.latest⟩
  | succeeded => exact hr.close _ _ (requestId_commit ..)
  | failed => exact hr.close _ _ (requestId_commit ..)
  | replayed =>
    -- Every request that waits is older than the run.
    refine ⟨fun p hp => ?_, fun p hp hid => ?_⟩
    · have := hr.id_le p hp
      show p.id ≤ r.state.requestId + 1
      omega
    · have := hr.id_le p hp
      rw [requestId_commit, requestId_issue] at hid
      omega
  | @sent q =>
    refine ⟨fun p hp => ?_, fun p hp hid => ?_⟩
    · rcases List.mem_append.1 hp with hp | hp
      · have := hr.id_le p hp
        show p.id ≤ r.state.requestId + 1
        omega
      · rw [List.mem_singleton.1 hp]
        exact Nat.le_refl _
    · rcases List.mem_append.1 hp with hp | hp
      · have := hr.id_le p hp
        rw [requestId_issue] at hid
        omega
      · rw [List.mem_singleton.1 hp]
        exact ⟨rfl, rfl⟩

theorem consistent_after (hr : r.Consistent) (h : History) : (r.after h).Consistent := by
  induction h generalizing r with
  | nil => exact hr
  | cons e h ih => exact ih ((transition_step r e.1 e.2).consistent hr)

end SalesExplorer.Retriever
