import Mathlib.Tactic.Common
import SalesExplorer.Proofs.Result.Cache
import SalesExplorer.Proofs.Result.FiniteFigures
import SalesExplorer.Rehearsal.Headline
import SalesExplorer.Result.Retrieval

/-!
# Calls of the headline board

Calls may overlap: one that the board cannot answer from what it keeps submits the query and waits
for the answer, while others begin and end. A history (`History`) is a list of calls and answers;
the board with the calls that wait is a `Desk`.

**Theorem (`fetched_until_success`).** After every history, a call finds the latest success that
was stored, within the window, and submits nothing; without one it submits the query once and ends
with the cards of its own answer, whatever comes in between. Errors leave what is stored. The cards
are always the same three, one for each figure of the query, with the values of the first row.

The board keeps one entry, and all entries are for one query, so it is told by the log of the
successes alone (`successes`, `cache_after`): it holds the first of the log (`held?_filled`), in
whatever order the answers of overlapping calls arrive.

**Rehearsals** (`exists_history_of_rehearse?`). The calls of a rehearsal are those of a history, in
which every answer follows its call at once.
-/

namespace SalesExplorer.Headline

open ResultCache

/-! ## Histories -/

/-- A board with the calls that wait, each for the answer to a request of its own. -/
structure Desk where
  board : Board
  /-- The requests so far, by their numbers. -/
  sent : List Request := []
  /-- The numbers of the requests without an answer. -/
  waiting : List Nat := []

inductive Event where
  /-- A call begins. -/
  | call
  /-- The answer to a request arrives, and the call that waits for it ends. -/
  | answer (id : Nat) (outcome : Except Fault (List Row))

/-- Events with their instants, the earliest first. -/
abbrev History := List (Nat × Event)

namespace Desk

def ofWindow (windowSeconds : Nat) : Desk := { board := .ofWindow windowSeconds }

/-- The query is submitted under the next number. -/
def submit (d : Desk) : Desk :=
  { d with
    sent := d.sent ++ [⟨d.sent.length, query⟩]
    waiting := d.waiting ++ [d.sent.length] }

/-- The request no longer waits, and the board is as its answer left it. -/
def settle (d : Desk) (id : Nat) (board : Board) : Desk :=
  { d with board, waiting := d.waiting.filter (· != id) }

/-- The cards of a call that ends at once; none where it submits the query and waits. -/
def call (d : Desk) (now : Nat) : Option (List Card) × Desk :=
  match d.board.held? now with
  | some cards => (some cards, d)
  | none => (none, d.submit)

/-- The cards of the call that waits for the answer; none where no call does. -/
def answer (d : Desk) (now id : Nat) (outcome : Except Fault (List Row)) :
    Option (List Card) × Desk :=
  if id ∈ d.waiting then
    let (cards, board) := d.board.receive now outcome
    (some cards, d.settle id board)
  else (none, d)

def step (d : Desk) (now : Nat) : Event → Option (List Card) × Desk
  | .call => d.call now
  | .answer id outcome => d.answer now id outcome

def after (d : Desk) (h : History) : Desk := h.foldl (fun d e => (d.step e.1 e.2).2) d

end Desk

variable {d d' : Desk} {now id : Nat} {e : Event} {ended : Option (List Card)} {rows : List Row}

@[simp] theorem after_nil (d : Desk) : d.after [] = d := rfl

@[simp] theorem after_cons (d : Desk) (e : Nat × Event) (h : History) :
    d.after (e :: h) = (d.step e.1 e.2).2.after h := rfl

/-- What an event can do. -/
inductive Transition (d : Desk) (now : Nat) : Event → Option (List Card) → Desk → Prop
  | replayed {cs : List Card} (hheld : d.board.held? now = some cs) :
      Transition d now .call (some cs) d
  | sent (hheld : d.board.held? now = none) : Transition d now .call none d.submit
  | unawaited {id : Nat} {outcome : Except Fault (List Row)} (hid : id ∉ d.waiting) :
      Transition d now (.answer id outcome) none d
  | succeeded {id : Nat} {rows : List Row} (hid : id ∈ d.waiting) :
      Transition d now (.answer id (.ok rows)) (some (cards rows.head?))
        (d.settle id ⟨d.board.cache.insert now query rows⟩)
  | failed {id : Nat} {fault : Fault} (hid : id ∈ d.waiting) :
      Transition d now (.answer id (.error fault)) (some loadingCards) (d.settle id d.board)

theorem call_of_held? {cs : List Card} (hheld : d.board.held? now = some cs) :
    d.call now = (some cs, d) := by
  rw [Desk.call, hheld]

theorem call_of_not_held? (hheld : d.board.held? now = none) : d.call now = (none, d.submit) := by
  rw [Desk.call, hheld]

theorem answer_of_mem (hid : id ∈ d.waiting) (now : Nat) (outcome : Except Fault (List Row)) :
    d.answer now id outcome =
      (some (d.board.receive now outcome).1, d.settle id (d.board.receive now outcome).2) :=
  if_pos hid

theorem answer_of_notMem (hid : id ∉ d.waiting) (now : Nat) (outcome : Except Fault (List Row)) :
    d.answer now id outcome = (none, d) :=
  if_neg hid

theorem mem_waiting_submit (d : Desk) : d.sent.length ∈ d.submit.waiting :=
  List.mem_append_right _ (List.mem_singleton_self _)

theorem transition_step (d : Desk) (now : Nat) (e : Event) :
    Transition d now e (d.step now e).1 (d.step now e).2 := by
  cases e with
  | call =>
    rw [Desk.step]
    cases hheld : d.board.held? now with
    | some cs =>
      rw [call_of_held? hheld]
      exact .replayed hheld
    | none =>
      rw [call_of_not_held? hheld]
      exact .sent hheld
  | answer id outcome =>
    rw [Desk.step]
    by_cases hid : id ∈ d.waiting
    · rw [answer_of_mem hid]
      cases outcome with
      | ok rows => exact .succeeded hid
      | error fault => exact .failed hid
    · rw [answer_of_notMem hid]
      exact .unawaited hid

/-! ## Requests -/

/-- The requests are numbered as they were submitted, and all of them are the query. -/
def Numbered (d : Desk) : Prop := d.sent = (List.range d.sent.length).map (⟨·, query⟩)

theorem Transition.numbered (h : Transition d now e ended d') (hd : Numbered d) : Numbered d' := by
  cases h with
  | sent =>
    have hlength : d.submit.sent.length = d.sent.length + 1 := List.length_append
    rw [Numbered, hlength, List.range_succ, List.map_append, ← hd]
    rfl
  | replayed | unawaited | succeeded | failed => exact hd

theorem numbered_after (hd : Numbered d) (h : History) : Numbered (d.after h) := by
  induction h generalizing d with
  | nil => exact hd
  | cons e h ih => exact ih ((transition_step d e.1 e.2).numbered hd)

/-- A call waits until its own answer arrives. -/
theorem Transition.mem_waiting (h : Transition d now e ended d') (hid : id ∈ d.waiting)
    (hother : ∀ outcome, e ≠ .answer id outcome) : id ∈ d'.waiting := by
  have hkept {id' : Nat} {outcome : Except Fault (List Row)} (heq : e = .answer id' outcome) :
      id ∈ d.waiting.filter (· != id') := by
    refine List.mem_filter.2 ⟨hid, bne_iff_ne.2 ?_⟩
    rintro rfl
    exact hother outcome heq
  cases h with
  | replayed | unawaited => exact hid
  | sent => exact List.mem_append_left _ hid
  | succeeded | failed => exact hkept rfl

theorem mem_waiting_after (hid : id ∈ d.waiting) {h : History}
    (hother : ∀ e ∈ h, ∀ outcome, e.2 ≠ .answer id outcome) : id ∈ (d.after h).waiting := by
  induction h generalizing d with
  | nil => exact hid
  | cons e h ih =>
    refine ih ?_ fun e' he' => hother e' (List.mem_cons_of_mem _ he')
    exact (transition_step d e.1 e.2).mem_waiting hid (hother e List.mem_cons_self)

/-! ## Successes -/

/-- The success that an event brings to a call that waits for it. -/
def Event.success? (d : Desk) (now : Nat) : Event → Option Entry
  | .answer id (.ok rows) => if id ∈ d.waiting then some ⟨query, rows, now⟩ else none
  | _ => none

/-- The log of the successes after a history, the latest first. -/
def successes (d : Desk) (log : List Entry) : History → List Entry
  | [] => log
  | e :: h => successes (d.step e.1 e.2).2 ((e.2.success? d e.1).toList ++ log) h

theorem Transition.cache (h : Transition d now e ended d') :
    d'.board.cache = match e.success? d now with
      | some s => d.board.cache.insert s.insertedAt s.query s.rows
      | none => d.board.cache := by
  cases h with
  | replayed | sent | failed => rfl
  | @unawaited id outcome hid => cases outcome <;> simp [Event.success?, hid]
  | succeeded hid => simp [Event.success?, hid, Desk.settle]

variable {window windowSeconds : Nat} {log : List Entry}

/-- **What is stored is told by the log.** -/
theorem cache_after {capacity : Nat} (hd : d.board.cache = filled window capacity log)
    (h : History) : (d.after h).board.cache = filled window capacity (successes d log h) := by
  induction h generalizing d log with
  | nil => exact hd
  | cons e h ih =>
    apply ih
    rw [(transition_step d e.1 e.2).cache]
    cases e.2.success? d e.1 with
    | none => exact hd
    | some s => rw [hd, Option.toList_some, List.singleton_append, filled_cons]

theorem query_of_success? {s : Entry} (h : e.success? d now = some s) : s.query = query := by
  cases e with
  | call => cases h
  | answer id outcome =>
    cases outcome with
    | error fault => cases h
    | ok rows =>
      rw [Event.success?] at h
      split_ifs at h
      obtain rfl := Option.some_inj.1 h
      rfl

theorem query_of_mem_successes (hlog : ∀ s ∈ log, s.query = query) (h : History) :
    ∀ s ∈ successes d log h, s.query = query := by
  induction h generalizing d log with
  | nil => exact hlog
  | cons e h ih =>
    refine ih fun s hs => ?_
    rcases List.mem_append.1 hs with hs | hs
    · exact query_of_success? (Option.mem_toList.1 hs)
    · exact hlog s hs

/-- **The board holds the latest success**, until the window has passed. -/
theorem held?_filled (hlog : ∀ s ∈ log, s.query = query) (now : Nat) :
    (Board.mk (filled window 1 log)).held? now =
      (log.head?.filter fun s => now - s.insertedAt < window).map fun s => cards s.rows.head? := by
  cases log with
  | nil => rfl
  | cons s log =>
    have hquery : s.query = query := hlog s List.mem_cons_self
    rw [Board.held?, List.head?_cons, Option.filter_some]
    by_cases hlive : now - s.insertedAt < window
    · have hfound := get?_filled_cons_self Nat.one_ne_zero s log hlive
      rw [hquery] at hfound
      rw [hfound, if_pos (decide_eq_true hlive)]
      rfl
    · have hnone : (filled window 1 (s :: log)).get? now query = none := by
        rw [Option.eq_none_iff_forall_ne_some]
        intro rows hrows
        obtain ⟨e, hfind, -, hlt⟩ := latest_of_get?_filled hrows
        rw [List.find?_cons_of_pos (by simpa using hquery)] at hfind
        rw [← Option.some_inj.1 hfind] at hlt
        exact hlive hlt
      rw [hnone, if_neg (by simpa using hlive)]
      rfl

theorem held?_after (windowSeconds : Nat) (h : History) (now : Nat) :
    ((Desk.ofWindow windowSeconds).after h).board.held? now =
      ((successes (.ofWindow windowSeconds) [] h).head?.filter
        fun s => now - s.insertedAt < seconds windowSeconds).map fun s => cards s.rows.head? := by
  have hcache : ((Desk.ofWindow windowSeconds).after h).board.cache =
      filled (seconds windowSeconds) 1 (successes (.ofWindow windowSeconds) [] h) :=
    cache_after rfl h
  rw [← held?_filled (query_of_mem_successes (fun _ hs => absurd hs List.not_mem_nil) h),
    ← hcache]

/-! ## Cards -/

/-- The three cards, with the numbers that the values of a row are read as, or zero. -/
structure Shows (row : Option Row) (loading : Bool) (cs : List Card) : Prop where
  layout : cs.map (fun c => (c.title, c.key, c.format)) =
    [("Faturamento Total", "faturamento_total", .currency),
      ("Total de Pedidos", "total_pedidos", .number), ("Ticket Médio", "ticket_medio", .currency)]
  /-- Each card stands under a key of the query. -/
  queried : cs.map Card.key = query.outputKeys
  loading : ∀ c ∈ cs, c.loading = loading
  value : ∀ c ∈ cs, ∀ x, HoldsAt (numericValue? · = some x) row c.key → c.value = x
  zero : ∀ c ∈ cs, (∀ x, ¬HoldsAt (numericValue? · = some x) row c.key) →
    c.value = .finite (.zero false)

/-- The cards of an answer: the figures of the first row, or none yet. -/
def ShowsAnswer (cs : List Card) : Except Fault (List Row) → Prop
  | .ok rows => Shows rows.head? false cs
  | .error _ => Shows none true cs

theorem holdsAt_numericValue?_iff {row : Option Row} {key : String} {x : Binary64} :
    HoldsAt (numericValue? · = some x) row key ↔
      (row.bind (Members.get? · key)).bind numericValue? = some x :=
  holdsAt_iff (Q := (· = some x)) (by simp) fun _ => Iff.rfl

theorem figure_of_holdsAt {row : Option Row} {key : String} {x : Binary64}
    (h : HoldsAt (numericValue? · = some x) row key) : figure row key = x := by
  rw [figure, holdsAt_numericValue?_iff.1 h, Option.getD_some]

theorem figure_of_forall_not_holdsAt {row : Option Row} {key : String}
    (h : ∀ x, ¬HoldsAt (numericValue? · = some x) row key) :
    figure row key = .finite (.zero false) := by
  have hnone : (row.bind (Members.get? · key)).bind numericValue? = none :=
    Option.eq_none_iff_forall_ne_some.2 fun x hx => h x (holdsAt_numericValue?_iff.2 hx)
  rw [figure, hnone, Option.getD_none]

theorem shows_map_layout (row : Option Row) (loading : Bool) :
    Shows row loading (layout.map fun (title, key, format) =>
      ⟨title, key, format, figure row key, loading⟩) := by
  refine ⟨rfl, rfl, ?_, ?_, ?_⟩
  all_goals
    intro c hc
    obtain ⟨⟨title, key, format⟩, -, rfl⟩ := List.mem_map.1 hc
  · rfl
  · exact fun x => figure_of_holdsAt
  · exact figure_of_forall_not_holdsAt

theorem shows_cards (row : Option Row) : Shows row false (cards row) := shows_map_layout row false

theorem shows_loadingCards : Shows none true loadingCards := by
  rw [loadingCards, cards, List.map_map]
  exact shows_map_layout none true

theorem showsAnswer_receive (b : Board) (now : Nat) (outcome : Except Fault (List Row)) :
    ShowsAnswer (b.receive now outcome).1 outcome := by
  cases outcome with
  | ok rows => exact shows_cards rows.head?
  | error fault => exact shows_loadingCards

theorem exists_shows_of_held? {b : Board} {cs : List Card} (h : b.held? now = some cs) :
    ∃ row, Shows row false cs := by
  obtain ⟨rows, -, rfl⟩ := Option.map_eq_some_iff.1 h
  exact ⟨rows.head?, shows_cards _⟩

/-- Whatever a call ends with is the three cards of some row or of none. -/
theorem Transition.exists_shows {cs : List Card} (h : Transition d now e (some cs) d') :
    ∃ row loading, Shows row loading cs := by
  cases h with
  | replayed hheld =>
    obtain ⟨row, hrow⟩ := exists_shows_of_held? hheld
    exact ⟨row, false, hrow⟩
  | succeeded => exact ⟨_, false, shows_cards _⟩
  | failed => exact ⟨none, true, shows_loadingCards⟩

/-! ## Calls -/

/-- A call submits the query once, and ends with the cards of its own answer, which submits
nothing, whatever comes in between. -/
structure Desk.Fetches (d : Desk) (now : Nat) : Prop where
  waits : (d.call now).1 = none
  sent : (d.call now).2.sent = d.sent ++ [⟨d.sent.length, query⟩]
  answered : ∀ (between : History) (later : Nat) (outcome : Except Fault (List Row)),
    (∀ e ∈ between, ∀ other, e.2 ≠ .answer d.sent.length other) →
      ∃ cs, (((d.call now).2.after between).answer later d.sent.length outcome).1 = some cs ∧
        (((d.call now).2.after between).answer later d.sent.length outcome).2.sent =
          ((d.call now).2.after between).sent ∧
        ShowsAnswer cs outcome

/-- A call submits nothing, and ends at once with the cards of some rows. -/
structure Desk.Replays (d : Desk) (now : Nat) (rows : List Row) : Prop where
  unchanged : (d.call now).2 = d
  shown : ∃ cs, (d.call now).1 = some cs ∧ Shows rows.head? false cs

theorem fetches_of_held? (hheld : d.board.held? now = none) : d.Fetches now := by
  have hcall := call_of_not_held? hheld
  refine ⟨by rw [hcall], by rw [hcall]; rfl, fun between later outcome hother => ?_⟩
  have hwaits : d.sent.length ∈ ((d.call now).2.after between).waiting := by
    rw [hcall]
    exact mem_waiting_after (mem_waiting_submit d) hother
  rw [answer_of_mem hwaits]
  exact ⟨_, rfl, rfl, showsAnswer_receive _ later outcome⟩

theorem replays_of_held? (hheld : d.board.held? now = some (cards rows.head?)) :
    d.Replays now rows := by
  have hcall := call_of_held? hheld
  exact ⟨by rw [hcall], _, by rw [hcall], shows_cards _⟩

/-- **Headline figures are fetched until one success** and replayed from then on. -/
theorem fetched_until_success (windowSeconds : Nat) (h : History) (now : Nat) :
    let d := (Desk.ofWindow windowSeconds).after h
    let log := successes (.ofWindow windowSeconds) [] h
    (log = [] → d.Fetches now) ∧
    (∀ latest earlier, log = latest :: earlier →
      if now - latest.insertedAt < seconds windowSeconds then d.Replays now latest.rows
      else d.Fetches now) ∧
    (windowSeconds = 0 → d.Fetches now) ∧
    (∀ id fault, (d.answer now id (.error fault)).2.board = d.board) ∧
    d.sent = (List.range d.sent.length).map (⟨·, query⟩) ∧
    query = ⟨[⟨"total_amount", .sum, "faturamento_total"⟩, ⟨"sale_id", .count, "total_pedidos"⟩,
      ⟨"total_amount", .avg, "ticket_medio"⟩], [], [], none, none, none⟩ ∧
    ∀ e cs, (d.step now e).1 = some cs → ∃ row loading, Shows row loading cs := by
  intro d log
  have hheld : d.board.held? now = _ := held?_after windowSeconds h now
  refine ⟨fun hlog => ?_, fun latest earlier hlog => ?_, fun hzero => ?_, fun id fault => ?_, ?_,
    rfl, fun e cs hcs => ?_⟩
  · apply fetches_of_held?
    rw [hheld, show successes _ [] h = [] from hlog]
    rfl
  · rw [show successes _ [] h = latest :: earlier from hlog, List.head?_cons,
      Option.filter_some] at hheld
    split_ifs with hlive
    · exact replays_of_held? (by rw [hheld, if_pos (decide_eq_true hlive)]; rfl)
    · exact fetches_of_held? (by rw [hheld, if_neg (by simpa using hlive)]; rfl)
  · apply fetches_of_held?
    rw [hheld, hzero, Option.map_eq_none_iff, Option.filter_eq_none_iff]
    intro s _
    simp [seconds]
  · by_cases hid : id ∈ d.waiting
    · rw [answer_of_mem hid]
      rfl
    · rw [answer_of_notMem hid]
  · exact numbered_after (d := .ofWindow windowSeconds) rfl h
  · exact (hcs ▸ transition_step d now e).exists_shows

/-- Two calls overlap; the second one fails before the first one succeeds. -/
def overlapping : History :=
  [(0, .call), (1, .call), (2, .answer 1 (.error (.retrieval "offline"))),
    (3, .answer 0 (.ok [[("total_pedidos", .int 3)]]))]

theorem fetched_until_success_overlapping :
    (∃ cs, ((((Desk.ofWindow 60).call 0).2.after (overlapping.tail.take 2)).answer 3 0
        (.ok [[("total_pedidos", .int 3)]])).1 = some cs ∧
      Shows (some [("total_pedidos", .int 3)]) false cs) ∧
    ((Desk.ofWindow 60).after overlapping).Replays 4 [[("total_pedidos", .int 3)]] ∧
    ((Desk.ofWindow 60).after overlapping).Fetches 60000000003 ∧
    ((Desk.ofWindow 0).after overlapping).Fetches 4 := by
  refine ⟨?_, ?_, ?_, ?_⟩
  · have hfirst := (fetched_until_success 60 [] 0).1 rfl
    obtain ⟨cs, hcs, -, hshows⟩ := hfirst.answered (overlapping.tail.take 2) 3
      (.ok [[("total_pedidos", .int 3)]]) (by simp [overlapping, Desk.ofWindow])
    exact ⟨cs, hcs, hshows⟩
  · exact (fetched_until_success 60 overlapping 4).2.1 _ _ rfl
  · exact (fetched_until_success 60 overlapping 60000000003).2.1 _ _ rfl
  · exact (fetched_until_success 0 overlapping 4).2.2.1 rfl

/-! ## Rehearsals -/

/-- The cards that the calls of a history end with. -/
def Desk.shown (d : Desk) : History → List (List Card)
  | [] => []
  | e :: h => (d.step e.1 e.2).1.toList ++ (d.step e.1 e.2).2.shown h

/-- Some calls of a rehearsal one after another: their cards, if the script has a reply to each that
needs one. -/
def rehearse? (s : Rehearsal.HeadlineSession) :
    Nat → Option (List (List Card) × Rehearsal.HeadlineSession)
  | 0 => some ([], s)
  | n + 1 =>
    s.cards?.bind fun (cs, s') => (rehearse? s' n).map fun (rest, last) => (cs :: rest, last)

theorem after_append (d : Desk) (h k : History) : d.after (h ++ k) = (d.after h).after k :=
  List.foldl_append

theorem shown_append (d : Desk) (h k : History) :
    d.shown (h ++ k) = d.shown h ++ (d.after h).shown k := by
  induction h generalizing d with
  | nil => rfl
  | cons e h ih => simp only [List.cons_append, Desk.shown, ih, after_cons, List.append_assoc]

variable {s s' : Rehearsal.HeadlineSession}

/-- A call of a rehearsal is a call of the desk, followed at once by its answer if it waits. -/
theorem exists_history_of_cards? {cs : List Card} (h : s.cards? = some (cs, s'))
    (hd : d.board = s.board) : ∃ k, d.shown k = [cs] ∧ (d.after k).board = s'.board := by
  rw [Rehearsal.HeadlineSession.cards?, ← hd] at h
  cases hheld : d.board.held? s.clock with
  | some held =>
    rw [hheld] at h
    obtain ⟨rfl, rfl⟩ := Prod.mk.inj (Option.some_inj.1 h)
    refine ⟨[(s.clock, .call)], ?_, ?_⟩
    · rw [Desk.shown, Desk.step, call_of_held? hheld]
      rfl
    · rw [after_cons, Desk.step, call_of_held? hheld]
      rfl
  | none =>
    rw [hheld] at h
    obtain ⟨outcome, -, houtcome⟩ := Option.map_eq_some_iff.1 h
    obtain ⟨rfl, rfl⟩ := Prod.mk.inj houtcome
    have hanswer := answer_of_mem (mem_waiting_submit d) s.clock outcome
    refine ⟨[(s.clock, .call), (s.clock, .answer d.sent.length outcome)], ?_, ?_⟩
    · rw [Desk.shown, Desk.shown, Desk.step, call_of_not_held? hheld, Desk.step, hanswer]
      rfl
    · rw [after_cons, after_cons, Desk.step, call_of_not_held? hheld, Desk.step, hanswer]
      rfl

/-- **Rehearsals are histories**: one shows the same cards and leaves the board the same. -/
theorem exists_history_of_rehearse? {n : Nat} {all : List (List Card)}
    (h : rehearse? s n = some (all, s')) (hd : d.board = s.board) :
    ∃ k, d.shown k = all ∧ (d.after k).board = s'.board := by
  induction n generalizing s d all with
  | zero =>
    obtain ⟨rfl, rfl⟩ := Prod.mk.inj (Option.some_inj.1 h)
    exact ⟨[], rfl, hd⟩
  | succ n ih =>
    obtain ⟨⟨cs, next⟩, hcards, hrest⟩ := Option.bind_eq_some_iff.1 h
    obtain ⟨⟨rest, last⟩, hrehearse, heq⟩ := Option.map_eq_some_iff.1 hrest
    obtain ⟨rfl, rfl⟩ := Prod.mk.inj heq
    obtain ⟨k, hshown, hboard⟩ := exists_history_of_cards? hcards hd
    obtain ⟨l, hshown', hboard'⟩ := ih hrehearse hboard
    refine ⟨k ++ l, ?_, ?_⟩
    · rw [shown_append, hshown, hshown']
      rfl
    · rw [after_append, hboard']

end SalesExplorer.Headline
