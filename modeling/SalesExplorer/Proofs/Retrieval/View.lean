import Mathlib.Tactic.Common
import SalesExplorer.Proofs.Retrieval.LatestRun
import SalesExplorer.Result.View

/-!
# What the results area shows

**Theorem (`view_of_latest_run`).** After every history the results area shows the latest accepted
run: that there was none, that it has no answer yet, its rows, or the text for the user of its
fault. The rows of a success and the fault of an error are always there, so nothing is ever shown in
their place. A line of text is shown exactly where no data are, and data exactly where the latest
run was answered with a row.

The state of a history with an accepted run is `showing` for some answer (`LatestRun.state`), and
what is shown of such a state depends on the answer only (`View.ofState_showing`).
-/

namespace SalesExplorer

/-! ## Texts for the user -/

/-- What a fault tells the user: a failed retrieval and a refused selection have texts of their own,
and any other fault its text with the kind in front. -/
inductive Fault.Tells : Fault → String → Prop
  | retrieval (message : String) : Tells (.retrieval message) message
  | validation (cause : Violation) : Tells (.validation cause) cause.message
  | other {fault : Fault} (hretrieval : ∀ message, fault ≠ .retrieval message)
      (hvalidation : ∀ cause, fault ≠ .validation cause) : Tells fault fault.message

theorem Fault.notice_eq_iff {fault : Fault} {message : String} :
    fault.notice = message ↔ fault.Tells message := by
  constructor
  · rintro rfl
    cases fault with
    | retrieval message => exact .retrieval message
    | validation cause => exact .validation cause
    | _ => exact .other (by simp) (by simp)
  · intro h
    cases h with
    | retrieval | validation => rfl
    | other hretrieval hvalidation =>
      cases fault with
      | retrieval message => exact absurd rfl (hretrieval message)
      | validation cause => exact absurd rfl (hvalidation cause)
      | _ => rfl

namespace View

/-- What is shown of a run with this answer so far. -/
def ofAnswer : Option (Except Fault (List Row)) → View
  | none => loading
  | some (.ok rows) => success rows
  | some (.error fault) => error fault.notice

theorem ofState_showing (id : Nat) (q : Query) (answer : Option (Except Fault (List Row))) :
    ofState (.showing id q answer) = ofAnswer answer := by
  rcases answer with _ | _ | _ <;> rfl

theorem ofAnswer_ne_noQueryYet (answer : Option (Except Fault (List Row))) :
    ofAnswer answer ≠ noQueryYet := by
  rcases answer with _ | _ | _ <;> simp [ofAnswer]

theorem ofAnswer_eq_loading_iff {answer : Option (Except Fault (List Row))} :
    ofAnswer answer = loading ↔ answer = none := by
  rcases answer with _ | _ | _ <;> simp [ofAnswer]

theorem ofAnswer_eq_success_iff {answer : Option (Except Fault (List Row))} {rows : List Row} :
    ofAnswer answer = success rows ↔ answer = some (.ok rows) := by
  rcases answer with _ | _ | _ <;> simp [ofAnswer]

theorem ofAnswer_eq_error_iff {answer : Option (Except Fault (List Row))} {message : String} :
    ofAnswer answer = error message ↔
      ∃ fault, answer = some (.error fault) ∧ fault.Tells message := by
  rcases answer with _ | fault | _ <;> simp [ofAnswer, Fault.notice_eq_iff]

theorem hasData_iff {view : View} :
    view.hasData = true ↔ ∃ row rows, view = success (row :: rows) := by
  cases view with
  | success rows => cases rows <;> simp [hasData]
  | _ => simp [hasData]

theorem message?_eq_none_iff {view : View} : view.message? = none ↔ view.hasData = true := by
  cases view with
  | success rows => cases rows <;> simp [message?, hasData]
  | _ => simp [message?, hasData]

end View

namespace Retriever

/-- The latest accepted run of a history asks for `q`, and this is its answer so far, from the cache
or else from the backend. -/
def LatestRun (window capacity : Nat) (h : History) (q : Query)
    (answer : Option (Except Fault (List Row))) : Prop :=
  ∃ (past rest : History) (now : Nat), h = past ++ (now, .run q) :: rest ∧ q.validate = .ok () ∧
    accepted rest = [] ∧
    answer = answerOf (((fresh window capacity).after past).cache.get? now q)
      (accepted h).length rest

variable {window capacity : Nat} {h : History} {q q' : Query}
  {answer answer' : Option (Except Fault (List Row))}

/-- **The state shows the latest run.** -/
theorem LatestRun.state (hl : LatestRun window capacity h q answer) :
    ((fresh window capacity).after h).state = .showing (accepted h).length q answer := by
  obtain ⟨past, rest, now, rfl, hq, hrest, rfl⟩ := hl
  have hnext : ((fresh window capacity).after past).state.requestId + 1 =
      (accepted (past ++ (now, .run q) :: rest)).length := by
    rw [requestId_after, accepted_append, accepted_cons, accepted?_run_of_ok hq, hrest]
    simp [fresh]
  rw [after_append, after_cons, ← hnext]
  exact state_after_run (consistent_after (consistent_fresh window capacity) past) now hq hrest

theorem exists_latestRun (window capacity : Nat) (hne : accepted h ≠ []) :
    ∃ q answer, LatestRun window capacity h q answer := by
  obtain ⟨past, rest, now, q, hsplit, hq, hrest⟩ := exists_latest_run hne
  exact ⟨q, _, past, rest, now, hsplit, hq, hrest, rfl⟩

theorem state_of_no_run (window capacity : Nat) (hnone : accepted h = []) :
    ((fresh window capacity).after h).state = {} :=
  state_after_of_settled (consistent_fresh window capacity) (fun hl => by cases hl) hnone

/-- A history has one latest run, and this has one answer. -/
theorem LatestRun.unique (hl : LatestRun window capacity h q answer)
    (hl' : LatestRun window capacity h q' answer') : q = q' ∧ answer = answer' := by
  have hstate := hl.state.symm.trans hl'.state
  rcases answer with _ | _ | _ <;> rcases answer' with _ | _ | _ <;>
    simp_all [RequestState.showing]

/-- All but the view before the first run comes from the answer of the latest one. -/
theorem view_eq_iff (view : View) (hview : view ≠ .noQueryYet) :
    View.ofState ((fresh window capacity).after h).state = view ↔
      ∃ q answer, LatestRun window capacity h q answer ∧ View.ofAnswer answer = view := by
  constructor
  · rintro rfl
    by_cases hnone : accepted h = []
    · rw [state_of_no_run window capacity hnone] at hview
      exact absurd rfl hview
    · obtain ⟨q, answer, hl⟩ := exists_latestRun window capacity hnone
      exact ⟨q, answer, hl, by rw [hl.state, View.ofState_showing]⟩
  · rintro ⟨q, answer, hl, rfl⟩
    rw [hl.state, View.ofState_showing]

theorem view_eq_noQueryYet_iff :
    View.ofState ((fresh window capacity).after h).state = .noQueryYet ↔ accepted h = [] := by
  constructor
  · intro hview
    by_contra hne
    obtain ⟨q, answer, hl⟩ := exists_latestRun window capacity hne
    rw [hl.state, View.ofState_showing] at hview
    exact View.ofAnswer_ne_noQueryYet answer hview
  · intro hnone
    rw [state_of_no_run window capacity hnone]
    rfl

/-- A success has its rows, and an error its fault. -/
theorem answered_state (window capacity : Nat) (h : History) :
    let state := ((fresh window capacity).after h).state
    (state.status = .success → ∃ rows, state.rows = some rows) ∧
    (state.status = .error → ∃ fault, state.fault = some fault) := by
  intro state
  by_cases hnone : accepted h = []
  · have hstate : state = {} := state_of_no_run window capacity hnone
    rw [hstate]
    exact ⟨fun hs => (by cases hs), fun hs => (by cases hs)⟩
  · obtain ⟨q, answer, hl⟩ := exists_latestRun window capacity hnone
    have hstate : state = .showing (accepted h).length q answer := hl.state
    rw [hstate]
    rcases answer with _ | fault | rows
    · exact ⟨fun hs => (by cases hs), fun hs => (by cases hs)⟩
    · exact ⟨fun hs => (by cases hs), fun _ => ⟨fault, rfl⟩⟩
    · exact ⟨fun _ => ⟨rows, rfl⟩, fun hs => (by cases hs)⟩

/-- **The results area shows the latest accepted run**, after every history, and always has what it
needs to show it. -/
theorem view_of_latest_run (window capacity : Nat) (h : History) :
    let state := ((fresh window capacity).after h).state
    let view := View.ofState state
    let latest := LatestRun window capacity h
    (view = .noQueryYet ↔ accepted h = []) ∧
    (accepted h ≠ [] → ∃ q answer, latest q answer ∧
      ∀ q' answer', latest q' answer' → q = q' ∧ answer = answer') ∧
    (view = .loading ↔ ∃ q, latest q none) ∧
    (∀ rows, view = .success rows ↔ ∃ q, latest q (some (.ok rows))) ∧
    (∀ message, view = .error message ↔
      ∃ q fault, latest q (some (.error fault)) ∧ fault.Tells message) ∧
    (state.status = .success → ∃ rows, state.rows = some rows) ∧
    (state.status = .error → ∃ fault, state.fault = some fault) ∧
    (view.message? = none ↔ view.hasData = true) ∧
    (view.hasData = true ↔ ∃ q row rows, latest q (some (.ok (row :: rows)))) := by
  intro state view latest
  have hsuccess : ∀ rows, view = .success rows ↔ ∃ q, latest q (some (.ok rows)) := by
    intro rows
    simp only [view, state, latest, view_eq_iff (.success rows) (fun h => by cases h),
      View.ofAnswer_eq_success_iff, exists_eq_right]
  obtain ⟨hrows, hfault⟩ := answered_state window capacity h
  refine ⟨view_eq_noQueryYet_iff, fun hne => ?_, ?_, hsuccess, fun message => ?_, hrows, hfault,
    View.message?_eq_none_iff, ?_⟩
  · obtain ⟨q, answer, hl⟩ := exists_latestRun window capacity hne
    exact ⟨q, answer, hl, fun q' answer' => hl.unique⟩
  · simp only [view, state, latest, view_eq_iff .loading (fun h => by cases h),
      View.ofAnswer_eq_loading_iff, exists_eq_right]
  · simp only [view, state, latest, view_eq_iff (.error message) (fun h => by cases h),
      View.ofAnswer_eq_error_iff]
    constructor
    · rintro ⟨q, _, hl, fault, rfl, hmessage⟩
      exact ⟨q, fault, hl, hmessage⟩
    · rintro ⟨q, fault, hl, hmessage⟩
      exact ⟨q, _, hl, fault, rfl, hmessage⟩
  · simp only [View.hasData_iff, hsuccess]
    constructor
    · rintro ⟨row, rows, q, hl⟩
      exact ⟨q, row, rows, hl⟩
    · rintro ⟨q, row, rows, hl⟩
      exact ⟨row, rows, q, hl⟩

/-- The backend fails for the run that is shown; the rows of the run before it come too late. -/
theorem view_of_latest_run_failed :
    let q₁ : Query := { metrics := [.ofColumn "total_amount" .sum], dimensions := [.store] }
    let q₂ : Query := { metrics := [.ofColumn "sale_id" .count], dimensions := [.channel] }
    let h : History := [(0, .run q₁), (1, .run q₂), (5, .answer 2 (.error (.retrieval "offline"))),
      (7, .answer 1 (.ok [[("store_name", .str "Centro")]]))]
    let view := View.ofState ((fresh 30 1).after h).state
    LatestRun 30 1 h q₂ (some (.error (.retrieval "offline"))) ∧
      view = .error "offline" ∧ view.message? = some "offline" ∧ ¬view.hasData = true := by
  intro q₁ q₂ h view
  have hlatest : LatestRun 30 1 h q₂ (some (.error (.retrieval "offline"))) :=
    ⟨[(0, .run q₁)], _, 1, rfl, by rfl, rfl, rfl⟩
  obtain ⟨-, -, -, -, herror, -, -, hmessage, -⟩ := view_of_latest_run 30 1 h
  have hview : view = .error "offline" :=
    (herror "offline").2 ⟨q₂, _, hlatest, .retrieval "offline"⟩
  have hshown : view.message? = some "offline" := by
    rw [hview]
    rfl
  refine ⟨hlatest, hview, hshown, fun hdata => ?_⟩
  rw [hmessage.2 hdata] at hshown
  cases hshown

end Retriever

end SalesExplorer
