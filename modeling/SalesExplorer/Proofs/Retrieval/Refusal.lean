import Mathlib.Tactic.Common
import SalesExplorer.Proofs.Retrieval.Submissions

/-!
# Refused runs leave no trace

**Theorem (`refused_runs_invisible`).** A run whose query validation refuses returns the fault of
validation, sends nothing and leaves the retriever as it was. So a history and the same history
without its refused runs end in the same retriever, hand out the same tickets and send the same
requests. More than that, every other event meets the same retriever in both: whatever is recorded
of the other events, the two records are equal (`collect_admitted`). In particular a refused run
takes no number, so it does not overtake a request on its way.
-/

namespace SalesExplorer.Retriever

/-- The event is a run that validation refuses. -/
def Event.refused : Event → Bool
  | .run q => !q.validate.isOk
  | _ => false

/-- The history without its refused runs. -/
def admitted (h : History) : History := h.filter fun e => !e.2.refused

variable {r : Retriever} {now : Nat} {q : Query} {e : Event} {fault : Fault}

theorem exists_of_refused (he : e.refused = true) :
    ∃ q fault, e = .run q ∧ q.validate = .error fault := by
  cases e with
  | run q =>
    cases hq : q.validate with
    | error fault => exact ⟨q, fault, rfl, hq⟩
    | ok => simp [Event.refused, hq, Except.isOk, Except.toBool] at he
  | _ => cases he

theorem admitted_cons_of_refused (he : e.refused = true) (now : Nat) (h : History) :
    admitted ((now, e) :: h) = admitted h :=
  List.filter_cons_of_neg (by simp [he])

theorem admitted_cons (he : e.refused = false) (now : Nat) (h : History) :
    admitted ((now, e) :: h) = (now, e) :: admitted h :=
  List.filter_cons_of_pos (by simp [he])

/-! ## One refused run -/

theorem step_run_of_invalid (hq : q.validate = .error fault) (r : Retriever) (now : Nat) :
    r.step now (.run q) = r := by
  rw [step, run_of_invalid hq]

theorem sent_run_of_invalid (hq : q.validate = .error fault) (r : Retriever) (now : Nat) :
    (Event.run q).sent r now = [] := by
  rw [Event.sent, step_run_of_invalid hq]
  simp

/-- Where nothing can wait for an answer, the fault of validation comes first as well. -/
theorem runDetached_of_invalid (hq : q.validate = .error fault) :
    runDetached q = .error fault := by
  simp [runDetached, hq, bind, Except.bind]

theorem step_of_refused (he : e.refused = true) (r : Retriever) (now : Nat) :
    r.step now e = r := by
  obtain ⟨q, fault, rfl, hq⟩ := exists_of_refused he
  exact step_run_of_invalid hq r now

/-! ## Histories without refused runs -/

theorem after_admitted (r : Retriever) (h : History) : r.after (admitted h) = r.after h := by
  induction h generalizing r with
  | nil => rfl
  | cons e h ih =>
    obtain ⟨now, e⟩ := e
    cases he : e.refused with
    | true => rw [admitted_cons_of_refused he, after_cons, step_of_refused he, ih]
    | false => rw [admitted_cons he, after_cons, after_cons, ih]

/-- Every other event meets the same retriever, so every record of the other events is the same. -/
theorem collect_admitted {α : Type} (f : Retriever → Nat → Event → List α) (r : Retriever)
    (h : History) : collect f r (admitted h) =
      collect (fun r now e => if e.refused then [] else f r now e) r h := by
  induction h generalizing r with
  | nil => rfl
  | cons e h ih =>
    obtain ⟨now, e⟩ := e
    cases he : e.refused with
    | true =>
      rw [admitted_cons_of_refused he, ih]
      simp only [collect, he, if_true, List.nil_append, step_of_refused he]
    | false =>
      rw [admitted_cons he]
      simp only [collect, he, Bool.false_eq_true, if_false, ih]

/-- A record that has nothing of refused runs anyway. -/
theorem collect_admitted_of_silent {α : Type} {f : Retriever → Nat → Event → List α}
    (hf : ∀ r now e, e.refused = true → f r now e = []) (r : Retriever) (h : History) :
    collect f r (admitted h) = collect f r h := by
  rw [collect_admitted]
  congr 1
  funext r now e
  split
  · rename_i he
    rw [hf r now e he]
  · rfl

theorem tickets_admitted (r : Retriever) (h : History) :
    tickets r (admitted h) = tickets r h := by
  refine collect_admitted_of_silent (fun r now e he => ?_) r h
  obtain ⟨q, fault, rfl, hq⟩ := exists_of_refused he
  rw [ticket?_of_invalid hq]
  rfl

theorem submissions_admitted (r : Retriever) (h : History) :
    submissions r (admitted h) = submissions r h := by
  refine collect_admitted_of_silent (fun r now e he => ?_) r h
  obtain ⟨q, fault, rfl, hq⟩ := exists_of_refused he
  exact sent_run_of_invalid hq r now

/-- **Refused runs leave no trace**, wherever they stand in a history. -/
theorem refused_runs_invisible (window capacity : Nat) (h : History) :
    let start := fresh window capacity
    (∀ (past rest : History) (now : Nat) (q : Query) (fault : Fault),
      h = past ++ (now, .run q) :: rest → q.validate = .error fault →
      let r := start.after past
      r.run now q = .error fault ∧ runDetached q = .error fault ∧ r.step now (.run q) = r ∧
        (Event.run q).sent r now = []) ∧
    start.after (admitted h) = start.after h ∧
    tickets start (admitted h) = tickets start h ∧
    submissions start (admitted h) = submissions start h ∧
    (∀ (α : Type) (f : Retriever → Nat → Event → List α), collect f start (admitted h) =
      collect (fun r now e => if e.refused then [] else f r now e) start h) := by
  intro start
  refine ⟨fun past rest now q fault _ hq => ?_, after_admitted start h, tickets_admitted start h,
    submissions_admitted start h, fun α f => collect_admitted f start h⟩
  exact ⟨run_of_invalid hq, runDetached_of_invalid hq, step_run_of_invalid hq _ now,
    sent_run_of_invalid hq _ now⟩

/-- A run without a dimension is refused while a request waits, and the request is still the latest
when its answer arrives. -/
theorem refused_runs_invisible_between :
    let q : Query := { metrics := [.ofColumn "total_amount" .sum], dimensions := [.store] }
    let bare : Query := { q with dimensions := [] }
    let h : History := [(0, .run q), (1, .run bare), (2, .answer 1 (.ok []))]
    let r := (fresh 30 1).after [(0, .run q)]
    bare.validate = .error .notRunnable ∧ r.run 1 bare = .error .notRunnable ∧
    r.step 1 (.run bare) = r ∧ admitted h = [(0, .run q), (2, .answer 1 (.ok []))] ∧
    ((fresh 30 1).after h).state.status = .success := by
  intro q bare h r
  have hbare : bare.validate = .error .notRunnable := by rfl
  obtain ⟨hrefused, hafter, -, -, -⟩ := refused_runs_invisible 30 1 h
  obtain ⟨hrun, -, hstep, -⟩ := hrefused [(0, .run q)] _ 1 bare .notRunnable rfl hbare
  refine ⟨hbare, hrun, hstep, rfl, ?_⟩
  rw [← hafter]
  rfl

end SalesExplorer.Retriever
