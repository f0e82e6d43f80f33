import Mathlib.Tactic.Common
import SalesExplorer.Proofs.Retrieval.Replay

/-!
# What survives forgetting

Forgetting empties the cache, but it does not reach the request on its way: if this one is still the
latest when it is answered, its success enters the cache like any other.

**Theorem (`forgets_unless_awaited`).** After the cached results were forgotten, a run that the
cache answers gets the rows of the latest retrieval for its query since then. The request behind it
was sent after the forgetting exactly if it is not the one request that was the latest and waited
when the results were forgotten. The first accepted run reaches the backend unless this request was
for the same query and has succeeded in the meantime.

That it can go wrong is `replays_forgotten_request`.

A request waits until its first end (`request?_after`), and while the latest request does not wait,
only an accepted run can bring a success (`successes_of_idle`).
-/

namespace SalesExplorer.Retriever

open ResultCache

variable {r r' : Retriever} {now window capacity id : Nat} {q : Query} {e : Event} {s : Success}
  {log : List Success}

/-! ## Waiting -/

/-- A request waits until an event ends it; a later run has another number. -/
theorem Transition.request? (ht : Transition r now e r') (hid : id ≤ r.state.requestId) :
    r'.request? id = if e.end? id = none then r.request? id else none := by
  cases ht with
  | refused | replayed | forgotten => rfl
  | @sent q =>
    have hne : r.state.requestId + 1 ≠ id := by omega
    simp [Retriever.request?, Event.end?, hne]
  | @unawaited i outcome hp =>
    by_cases hi : i = id
    · subst hi
      simp [Event.end?, hp]
    · simp [Event.end?, hi]
  | @superseded i outcome p hp hne =>
    rw [request?_abandon]
    by_cases hi : i = id <;> simp [Event.end?, hi]
  | succeeded hp | failed hp =>
    show (r.abandon r.state.requestId).request? id = _
    rw [request?_abandon]
    by_cases hi : r.state.requestId = id <;> simp [Event.end?, hi]
  | @abandoned i =>
    rw [request?_abandon]
    by_cases hi : i = id <;> simp [Event.end?, hi]

theorem request?_after (hid : id ≤ r.state.requestId) (h : History) :
    (r.after h).request? id = if firstEnd? id h = none then r.request? id else none := by
  induction h generalizing r with
  | nil => rfl
  | cons e h ih =>
    have ht := transition_step r e.1 e.2
    have hid' : id ≤ (r.step e.1 e.2).state.requestId := by
      rw [ht.requestId]
      omega
    rw [after_cons, ih hid', ht.request? hid, firstEnd?_cons]
    cases e.2.end? id with
    | none => rfl
    | some a => simp

theorem requestId_after_of_not_accepted (r : Retriever) {h : History} (hnone : accepted h = []) :
    (r.after h).state.requestId = r.state.requestId := by
  rw [requestId_after, hnone]
  rfl

/-! ## Idle retrievers -/

theorem replay?_of_not_accepted (he : (Event.run q).accepted? = none) :
    r.replay? now q = none := by
  rw [Option.eq_none_iff_forall_ne_some]
  intro rows hrows
  rw [accepted?_run_of_ok (replay?_eq_some_iff.1 hrows).1] at he
  cases he

theorem success?_of_idle (hidle : r.request? r.state.requestId = none)
    (he : e.accepted? = none) : e.success? r now = none := by
  cases e with
  | run q => rw [Event.success?, replay?_of_not_accepted he]; rfl
  | answer id outcome =>
    cases outcome with
    | error fault => rfl
    | ok rows =>
      rw [Event.success?]
      split
      · rename_i hid
        rw [hid, hidle]
        rfl
      · rfl
  | abandon id => rfl
  | forget => rfl

theorem successes_of_idle (hidle : r.request? r.state.requestId = none) {h : History}
    (hnone : accepted h = []) (hkeep : ∀ e ∈ h, e.2 ≠ .forget) : successes r log h = log := by
  induction h generalizing r log with
  | nil => rfl
  | cons e h ih =>
    rw [accepted_cons, List.append_eq_nil_iff, Option.toList_eq_nil_iff] at hnone
    obtain ⟨he, hrest⟩ := hnone
    obtain ⟨hne, hkeep⟩ := List.forall_mem_cons.1 hkeep
    have ht := transition_step r e.1 e.2
    have hid : (r.step e.1 e.2).state.requestId = r.state.requestId := by
      rw [ht.requestId, he]
      rfl
    have hidle' : (r.step e.1 e.2).request? (r.step e.1 e.2).state.requestId = none := by
      rw [hid, ht.request? (Nat.le_refl _), hidle, ite_self]
    rw [successes, record_of_ne_forget hne, success?_of_idle hidle he]
    exact ih hidle' hrest hkeep

/-! ## The request behind a retrieval -/

/-- The request behind a retrieval was sent in the history, or it was the latest one and waited
before it. -/
theorem sent_or_awaited (hr : r.Consistent) {h : History} (hs : RetrievedSince r h s) :
    ⟨s.requestId, s.query⟩ ∈ submissions r h ∨
      r.request? r.state.requestId = some ⟨s.requestId, s.query⟩ := by
  obtain ⟨before, rest, rfl, hid, hp, -⟩ := hs
  rcases mem_pending_after (mem_pending_of_request? hp).1 with hold | hnew
  · -- It waited all along, and no number is between it and the latest one.
    have hle := hr.id_le _ hold
    have hge : r.state.requestId ≤ s.requestId := by
      rw [← hid, requestId_after]
      omega
    have heq : s.requestId = r.state.requestId := Nat.le_antisymm hle hge
    rw [request?_after hle] at hp
    split at hp
    · exact Or.inr (heq ▸ hp)
    · cases hp
  · rw [submissions_append]
    exact Or.inl (List.mem_append_left _ hnew)

/-- It cannot be both, because later requests have later numbers. -/
theorem mem_submissions_iff_not_awaited (hr : r.Consistent) {h : History}
    (hs : RetrievedSince r h s) :
    ⟨s.requestId, s.query⟩ ∈ submissions r h ↔
      r.request? r.state.requestId ≠ some ⟨s.requestId, s.query⟩ := by
  constructor
  · intro hsent hawaited
    have hlt := lt_id_of_mem_submissions hr hsent
    have hid : s.requestId = r.state.requestId := (mem_pending_of_request? hawaited).2
    exact Nat.lt_irrefl _ (hid ▸ hlt)
  · intro hne
    exact (sent_or_awaited hr hs).resolve_right hne

/-! ## Before the next accepted run -/

theorem replayed_eq_false_of_mem_successes {h : History} (hnone : accepted h = [])
    (hs : s ∈ successes r [] h) : s.replayed = false := by
  by_contra hrep
  rw [Bool.not_eq_false] at hrep
  rcases mem_successes hs with ⟨hnil, -⟩ | ⟨before, e, rest, rfl, hsuccess, -⟩
  · exact List.not_mem_nil hnil
  · obtain ⟨hrun, -, -⟩ := found_of_success? hsuccess hrep
    simp only [accepted_append, accepted_cons, List.append_eq_nil_iff,
      Option.toList_eq_nil_iff] at hnone
    have hmiss : e.2.success? (r.after before) e.1 = none := by
      rw [hrun, Event.success?, replay?_of_not_accepted (hrun ▸ hnone.2.1)]
      rfl
    rw [hmiss] at hsuccess
    cases hsuccess

/-- Without an accepted run, every success is an answer to the request that was the latest before
and waited. -/
theorem awaited_of_mem_successes {h : History} (hnone : accepted h = [])
    (hs : s ∈ successes r [] h) :
    r.request? r.state.requestId = some ⟨r.state.requestId, s.query⟩ ∧
      ∃ before rest, h = before ++ (s.insertedAt, .answer r.state.requestId (.ok s.rows)) :: rest ∧
        firstEnd? r.state.requestId before = none := by
  have hnew := replayed_eq_false_of_mem_successes hnone hs
  obtain ⟨before, rest, hsplit, hid, hp, -⟩ := retrievedSince_of_mem hs hnew
  rw [hsplit, accepted_append, List.append_eq_nil_iff] at hnone
  rw [requestId_after_of_not_accepted r hnone.1] at hid
  rw [← hid, request?_after (Nat.le_refl _)] at hp
  split at hp
  · rename_i hend
    refine ⟨hp, before, rest, ?_, hend⟩
    rw [hsplit, hid]
  · cases hp

/-- The request that was the latest and waited is answered with a success: from then on this is the
latest success, until the next accepted run. -/
theorem head?_successes_of_answer (log : List Success) {before rest : History} {t : Nat}
    {rows : List Row} (hp : r.request? r.state.requestId = some ⟨r.state.requestId, q⟩)
    (hnone : accepted (before ++ (t, .answer r.state.requestId (.ok rows)) :: rest) = [])
    (hkeep : ∀ e ∈ before ++ (t, .answer r.state.requestId (.ok rows)) :: rest, e.2 ≠ .forget)
    (hend : firstEnd? r.state.requestId before = none) :
    (successes r log (before ++ (t, .answer r.state.requestId (.ok rows)) :: rest)).head? =
      some ⟨⟨q, rows, t⟩, r.state.requestId, false⟩ := by
  rw [accepted_append, accepted_cons, List.append_eq_nil_iff, List.append_eq_nil_iff] at hnone
  obtain ⟨hbefore, -, hrest⟩ := hnone
  have hid := requestId_after_of_not_accepted r hbefore
  have hwaits : (r.after before).request? r.state.requestId = some ⟨r.state.requestId, q⟩ := by
    rw [request?_after (Nat.le_refl _), if_pos hend]
    exact hp
  have hsuccess : (Event.answer r.state.requestId (.ok rows)).success? (r.after before) t =
      some ⟨⟨q, rows, t⟩, r.state.requestId, false⟩ := by
    rw [Event.success?, if_pos hid.symm, hwaits]
    rfl
  -- The answer ends the request, so nothing is shown after it.
  have ht := transition_step (r.after before) t (.answer r.state.requestId (.ok rows))
  have hidle : ((r.after before).step t (.answer r.state.requestId (.ok rows))).request?
      ((r.after before).step t (.answer r.state.requestId (.ok rows))).state.requestId = none := by
    rw [ht.requestId]
    show Retriever.request? _ (r.after before).state.requestId = none
    rw [hid, ht.request? (Nat.le_of_eq hid.symm)]
    simp [Event.end?]
  have hne : Event.answer r.state.requestId (.ok rows) ≠ .forget := by simp
  have hkeep' : ∀ e ∈ rest, e.2 ≠ .forget := fun e he =>
    hkeep e (List.mem_append_right _ (List.mem_cons_of_mem _ he))
  rw [successes_append, successes, successes_of_idle hidle hrest hkeep', record_of_ne_forget hne,
    hsuccess]
  rfl

/-- Without an accepted run since, the cache answers exactly the query of the request that was the
latest and waited, once this has succeeded. -/
theorem Explains.isSome_get?_iff {h : History} (hnone : accepted h = [])
    (hkeep : ∀ e ∈ h, e.2 ≠ .forget)
    (hlog : Explains window capacity (successes r [] h) (r.after h)) :
    ((r.after h).cache.get? now q).isSome ↔
      capacity ≠ 0 ∧ r.request? r.state.requestId = some ⟨r.state.requestId, q⟩ ∧
        ∃ before t rows rest,
          h = before ++ (t, .answer r.state.requestId (.ok rows)) :: rest ∧
            firstEnd? r.state.requestId before = none ∧ now - t < window := by
  rw [Option.isSome_iff_exists]
  constructor
  · rintro ⟨rows, hfound⟩
    obtain ⟨s, hs, -, hlive⟩ := hlog.latest hfound
    have hquery : s.query = q := by simpa using List.find?_some hs
    obtain ⟨hp, before, rest, hsplit, hend⟩ :=
      awaited_of_mem_successes hnone (List.mem_of_find?_eq_some hs)
    refine ⟨?_, hquery ▸ hp, before, s.insertedAt, s.rows, rest, hsplit, hend, hlive⟩
    rw [hlog.cache] at hfound
    have hsound := sound_filled window capacity ((successes r [] h).map (·.toEntry))
    obtain ⟨e, he, -⟩ := (get?_eq_some_iff hsound).1 hfound
    have hne := hsound.capacity_ne_zero he
    rwa [capacity_filled] at hne
  · rintro ⟨hcap, hp, before, t, rows, rest, rfl, hend, hlive⟩
    have hhead := head?_successes_of_answer [] hp hnone hkeep hend
    obtain ⟨older, hsuccesses⟩ := List.head?_eq_some_iff.1 hhead
    refine ⟨rows, ?_⟩
    rw [hlog.cache, hsuccesses, List.map_cons]
    exact get?_filled_cons_self hcap ⟨q, rows, t⟩ _ hlive

/-! ## Forgetting -/

theorem consistent_forget (hr : r.Consistent) : r.forget.Consistent := ⟨hr.id_le, hr.latest⟩

/-- **What survives forgetting**, in every history. -/
theorem forgets_unless_awaited (window capacity : Nat) (before since : History) (t now : Nat)
    (q : Query) (hsince : ∀ e ∈ since, e.2 ≠ .forget) :
    let cleared := ((fresh window capacity).after before).forget
    let last := cleared.state.requestId
    let r := (fresh window capacity).after (before ++ (t, .forget) :: since)
    (∀ rows, r.replay? now q = some rows → ∃ s : Success,
      (successes cleared [] since).find? (fun x => x.query == q && !x.replayed) = some s ∧
      s.query = q ∧ s.rows = rows ∧ RetrievedSince cleared since s ∧
      (⟨s.requestId, q⟩ ∈ submissions cleared since ↔
        cleared.request? last ≠ some ⟨s.requestId, q⟩)) ∧
    (accepted since = [] → q.validate = .ok () →
      ((r.replay? now q).isSome ↔
        capacity ≠ 0 ∧ cleared.request? last = some ⟨last, q⟩ ∧
          ∃ a t' rows b, since = a ++ (t', .answer last (.ok rows)) :: b ∧
            firstEnd? last a = none ∧ now - t' < window)) := by
  intro cleared last r
  have hcleared : cleared.Consistent :=
    consistent_forget (consistent_after (consistent_fresh window capacity) before)
  have hr : r = cleared.after since := by
    show (fresh window capacity).after _ = _
    rw [after_append, after_cons]
    rfl
  have hlog : Explains window capacity (successes cleared [] since) (cleared.after since) := by
    have hall := (explains_fresh window capacity).after (before ++ (t, .forget) :: since)
    rw [successes_append, after_append, after_cons] at hall
    exact hall
  rw [hr]
  refine ⟨fun rows hrows => ?_, fun hnone hq => ?_⟩
  · obtain ⟨s, hs, rfl, hnew, hsrows⟩ := hlog.latest_retrieved hrows
    have hretrieved := retrievedSince_of_mem (List.mem_of_find?_eq_some hs) hnew
    exact ⟨s, hs, rfl, hsrows, hretrieved, mem_submissions_iff_not_awaited hcleared hretrieved⟩
  · rw [isSome_replay?_iff, hlog.isSome_get?_iff hnone hsince]
    exact and_iff_right hq

/-- A run after the forgetting is replayed, and was sent after it; the awaited request of the run
before it is replayed as well. -/
theorem forgets_unless_awaited_both :
    let q : Query := { metrics := [.ofColumn "total_amount" .sum], dimensions := [.store] }
    let rows : List Row := [[("store_name", .str "A"), ("sum_total_amount", .int 120)]]
    let before : History := [(0, .run q)]
    let again : History :=
      [(2, .answer 1 (.error .notRunnable)), (3, .run q), (5, .answer 2 (.ok rows))]
    let late : History := [(2, .answer 1 (.ok rows))]
    let cleared := ((fresh 30 1).after before).forget
    (∀ e ∈ again, e.2 ≠ .forget) ∧ (∀ e ∈ late, e.2 ≠ .forget) ∧ accepted late = [] ∧
    ((fresh 30 1).after (before ++ (1, .forget) :: again)).replay? 9 q = some rows ∧
    (∃ s : Success, s.rows = rows ∧ RetrievedSince cleared again s ∧
      (⟨s.requestId, q⟩ ∈ submissions cleared again ↔
        cleared.request? 1 ≠ some ⟨s.requestId, q⟩)) ∧
    (((fresh 30 1).after (before ++ (1, .forget) :: late)).replay? 9 q).isSome := by
  intro q rows before again late cleared
  have hq : q.validate = .ok () := by rfl
  have hagain : ∀ e ∈ again, e.2 ≠ .forget := by simp [again]
  have hlate : ∀ e ∈ late, e.2 ≠ .forget := by simp [late]
  have hnone : accepted late = [] := by rfl
  have hrows : ((fresh 30 1).after (before ++ (1, .forget) :: again)).replay? 9 q = some rows := by
    rfl
  obtain ⟨hsource, -⟩ := forgets_unless_awaited 30 1 before again 1 9 q hagain
  obtain ⟨-, hfirst⟩ := forgets_unless_awaited 30 1 before late 1 9 q hlate
  obtain ⟨s, -, -, hsrows, hretrieved, hsent⟩ := hsource rows hrows
  have hawaited : cleared.request? 1 = some ⟨1, q⟩ := by rfl
  refine ⟨hagain, hlate, hnone, hrows, ⟨s, hsrows, hretrieved, hsent⟩, ?_⟩
  exact (hfirst hnone hq).2
    ⟨by decide, hawaited, [], 2, rows, [], rfl, rfl, by decide⟩

/-- **Forgetting misses the request on its way.** Its answer is replayed by the first run after the
forgetting, although no request was sent since. -/
theorem replays_forgotten_request :
    let q : Query := { metrics := [.ofColumn "total_amount" .sum], dimensions := [.store] }
    let rows : List Row := [[("store_name", .str "A"), ("sum_total_amount", .int 120)]]
    let before : History := [(0, .run q)]
    let since : History := [(2, .answer 1 (.ok rows))]
    let cleared := ((fresh 30 1).after before).forget
    let r := (fresh 30 1).after (before ++ (1, .forget) :: since)
    q.validate = .ok () ∧ accepted since = [] ∧ submissions cleared since = [] ∧
    r.replay? 3 q = some rows ∧ Event.sent r 3 (.run q) = [] := by
  intro q rows before since cleared r
  exact ⟨rfl, rfl, rfl, rfl, rfl⟩

end SalesExplorer.Retriever
