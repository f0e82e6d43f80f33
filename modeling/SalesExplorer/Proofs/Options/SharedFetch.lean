import Mathlib.Data.List.Induction
import Mathlib.Data.List.Nodup
import Mathlib.Tactic.Common
import SalesExplorer.Proofs.Options.History

/-!
# One fetch for each dimension

**Theorem (`one_fetch_per_dimension`).** After every history, a cache has at most one entry for each
dimension. A look-up starts a fetch exactly if the dimension was not looked up since its list was
last dropped, or if its fetch has settled and the window of the outcome has passed. What a look-up
gets is a fetch that was started for the same dimension after the last drop: its status tells the
first outcome of that fetch so far, and one who waits gets its first outcome in what follows. The
outcome of any other fetch changes nothing, and neither does an event that concerns another
dimension.

All of it is read off one fact (`entryOf?_after_iff`): the entry of a dimension is its current fetch
with the first outcome since. A fetch is current if it is the last one started for its dimension and
the list of the dimension was not dropped since (`Current`). The proof follows the history from its
end: the last event starts the fetch, or the fetch was current before it (`current_concat_iff`), and
what the event does to the entry is `entryOf?_step`.
-/

namespace SalesExplorer

/-- What the status of a list tells about the first outcome of its fetch. -/
inductive OptionStatus.Tells : OptionStatus → Option (OptionOutcome × Nat) → Prop
  | loading : Tells .loading none
  | ready (options : List SelectOption) (settledAt : Nat) :
    Tells (.ready options) (some (.ok options, settledAt))
  | failed (fault : Fault) (settledAt : Nat) :
    Tells (.failed fault) (some (.error fault, settledAt))

namespace OptionCache

/-- The first outcome of a fetch in a history, with its instant. -/
def firstOutcome? (id : Nat) (h : History) : Option (OptionOutcome × Nat) :=
  h.findSome? fun e => match e.2 with
    | .settle fetch outcome => if fetch = id then some (outcome, e.1) else none
    | _ => none

/-- The fetch was started by a look-up of its dimension, is the last one started for it, and its
list was not dropped since; `since` is what happened after that look-up. -/
structure Current (start : OptionCache) (h : History) (fetch : OptionFetch) (since : History) :
    Prop where
  started : ∃ before now, h = before ++ (now, .lookup fetch.field) :: since ∧
    (Event.lookup fetch.field).fetch? (start.after before) now = some fetch
  kept : ∀ e ∈ since, e.2.drops fetch.field = false
  latest : ∀ other ∈ fetches start h, other.field = fetch.field → other.id ≤ fetch.id

/-- The dimension was not looked up since the beginning or since its list was last dropped. -/
def Unasked (h : History) (field : Dimension) : Prop :=
  ∀ before now since, h = before ++ (now, .lookup field) :: since →
    ∃ e ∈ since, e.2.drops field = true

/-- What one who waits for the fetch of an entry gets, given what happens afterwards. -/
def Entry.outcome? (e : Entry) (later : History) : Option (OptionOutcome × Nat) :=
  e.settled.or (firstOutcome? e.fetch.id later)

/-- The event is about a dimension, given the fetches so far. -/
def Event.Concerns (started : List OptionFetch) (field : Dimension) : Event → Prop
  | .lookup looked => looked = field
  | .settle id _ => ∃ fetch ∈ started, fetch.id = id ∧ fetch.field = field
  | .invalidate dropped => dropped = field
  | .clear => True

/-- A look-up got the current fetch of its dimension, with what became of it since. -/
structure Answered (start : OptionCache) (h : History) (now : Nat) (field : Dimension)
    (entry : Entry) (fetch : OptionFetch) (since : History) : Prop where
  current : Current start (h ++ [(now, .lookup field)]) fetch since
  field_eq : fetch.field = field
  entry_eq : entry = ⟨fetch, firstOutcome? fetch.id since⟩
  status : ∀ status, entry.status = status ↔ status.Tells (firstOutcome? fetch.id since)
  awaited : ∀ later, entry.outcome? later = firstOutcome? fetch.id (since ++ later)

/-- How the look-ups of a dimension share a fetch after a history. -/
structure Shares (start : OptionCache) (h : History) : Prop where
  single : ((start.after h).entries.map (·.fetch.field)).Nodup
  starts : ∀ (now : Nat) (field : Dimension), (start.after h).starts now field = true ↔
    Unasked h field ∨ ∃ fetch since outcome settledAt, Current start h fetch since ∧
      fetch.field = field ∧ firstOutcome? fetch.id since = some (outcome, settledAt) ∧
      start.window outcome ≤ now - settledAt
  pending : ∀ (now : Nat) (fetch : OptionFetch) (since : History), Current start h fetch since →
    firstOutcome? fetch.id since = none → (start.after h).starts now fetch.field = false
  answer : ∀ (now : Nat) (field : Dimension), ∃ fetch since,
    Answered start h now field ((start.after h).lookup now field).1 fetch since
  outdated : ∀ (now : Nat) (outcome : OptionOutcome), ∀ fetch ∈ fetches start h,
    (∀ since, ¬ Current start h fetch since) →
    (start.after h).settle now fetch.id outcome = start.after h
  apart : ∀ (now : Nat) (event : Event) (field : Dimension),
    ¬ event.Concerns (fetches start h) field →
    ((start.after h).step now event).entryOf? field = (start.after h).entryOf? field

variable {start c : OptionCache} {h since : History} {e : Nat × Event} {field : Dimension}
  {fetch : OptionFetch} {entry : Entry}

/-! ## Outcomes -/

theorem firstOutcome?_append (id : Nat) (h k : History) :
    firstOutcome? id (h ++ k) = (firstOutcome? id h).or (firstOutcome? id k) :=
  List.findSome?_append

/-- An entry keeps the first outcome of its fetch. -/
theorem next_firstOutcome? (fetch : OptionFetch) (since : History) (e : Nat × Event) :
    Entry.next ⟨fetch, firstOutcome? fetch.id since⟩ e.1 e.2 =
      ⟨fetch, firstOutcome? fetch.id (since ++ [e])⟩ := by
  obtain ⟨now, event⟩ := e
  rw [firstOutcome?_append]
  cases event with
  | settle id outcome =>
    by_cases hid : fetch.id = id
    · subst hid
      cases hsince : firstOutcome? fetch.id since <;> simp [Entry.next, firstOutcome?]
    · simp [Entry.next, firstOutcome?, hid, Ne.symm hid]
  | _ => simp [Entry.next, firstOutcome?]

theorem Entry.status_eq_iff {status : OptionStatus} :
    entry.status = status ↔ status.Tells entry.settled := by
  obtain ⟨fetch, settled⟩ := entry
  constructor
  · rintro rfl
    rcases settled with - | ⟨fault | options, settledAt⟩
    · exact .loading
    · exact .failed fault settledAt
    · exact .ready options settledAt
  · intro h
    cases h <;> rfl

/-! ## The current fetch -/

theorem Current.mem_fetches (hcur : Current start h fetch since) : fetch ∈ fetches start h := by
  obtain ⟨before, now, rfl, hfetch⟩ := hcur.started
  rw [fetches_append, fetches, hfetch]
  simp

theorem fetches_concat (start : OptionCache) (h : History) (e : Nat × Event) :
    fetches start (h ++ [e]) = fetches start h ++ (e.2.fetch? (start.after h) e.1).toList := by
  rw [fetches_append, fetches, fetches, List.append_nil]

theorem current_of_fetch? (hnew : e.2.fetch? (start.after h) e.1 = some fetch) :
    Current start (h ++ [e]) fetch [] := by
  obtain ⟨now, event⟩ := e
  obtain ⟨rfl, -, hid⟩ := fetch?_eq_some_iff.1 hnew
  refine ⟨⟨h, now, rfl, hnew⟩, by simp, fun other hother _ => ?_⟩
  rw [fetches_concat, hnew, List.mem_append] at hother
  rcases hother with hother | hother
  · rw [hid]
    exact Nat.le_of_lt (id_lt_of_mem_fetches hother)
  · rw [Option.toList_some, List.mem_singleton] at hother
    exact Nat.le_of_eq (congrArg OptionFetch.id hother)

theorem Current.concat (hcur : Current start h fetch since)
    (hkept : e.2.drops fetch.field = false)
    (hnew : e.2.fetch? (start.after h) e.1 ≠ some ⟨(start.after h).started, fetch.field⟩) :
    Current start (h ++ [e]) fetch (since ++ [e]) := by
  obtain ⟨before, now, rfl, hfetch⟩ := hcur.started
  refine ⟨⟨before, now, by simp, hfetch⟩, fun e' he' => ?_, fun other hother hfield => ?_⟩
  · rcases List.mem_append.1 he' with he' | he'
    · exact hcur.kept e' he'
    · rw [List.mem_singleton.1 he']
      exact hkept
  · rw [fetches_concat, List.mem_append] at hother
    rcases hother with hother | hother
    · exact hcur.latest other hother hfield
    · rw [Option.mem_toList] at hother
      obtain ⟨-, -, hid⟩ := fetch?_eq_some_iff.1 hother
      refine absurd ?_ hnew
      rw [hother, ← hid, ← hfield]

theorem Current.of_concat (hcur : Current start (h ++ [e]) fetch (since ++ [e])) :
    Current start h fetch since ∧ e.2.drops fetch.field = false ∧
      e.2.fetch? (start.after h) e.1 ≠ some ⟨(start.after h).started, fetch.field⟩ := by
  obtain ⟨before, now, hsplit, hfetch⟩ := hcur.started
  rw [← List.cons_append, ← List.append_assoc] at hsplit
  obtain ⟨hh, -⟩ := List.append_inj' hsplit rfl
  have hbefore : Current start h fetch since := {
    started := ⟨before, now, hh, hfetch⟩
    kept := fun e' he' => hcur.kept e' (List.mem_append_left _ he')
    latest := fun other hother =>
      hcur.latest other (fetches_concat start h e ▸ List.mem_append_left _ hother) }
  refine ⟨hbefore, hcur.kept e (by simp), fun hnew => ?_⟩
  -- A fetch that the event starts would have a greater number.
  have hmem : ⟨(start.after h).started, fetch.field⟩ ∈ fetches start (h ++ [e]) := by
    rw [fetches_concat, hnew]
    exact List.mem_append_right _ (List.mem_singleton_self _)
  have hle : (start.after h).started ≤ fetch.id := hcur.latest _ hmem rfl
  have hlt := id_lt_of_mem_fetches hbefore.mem_fetches
  omega

/-- A fetch is current after an event that starts it, and after one that neither drops nor replaces
it. -/
theorem current_concat_iff : Current start (h ++ [e]) fetch since ↔
    (since = [] ∧ e.2.fetch? (start.after h) e.1 = some fetch) ∨
    ∃ earlier, since = earlier ++ [e] ∧ Current start h fetch earlier ∧
      e.2.drops fetch.field = false ∧
      e.2.fetch? (start.after h) e.1 ≠ some ⟨(start.after h).started, fetch.field⟩ := by
  constructor
  · intro hcur
    obtain ⟨before, now, hsplit, hfetch⟩ := hcur.started
    rcases List.eq_nil_or_concat since with rfl | ⟨earlier, last, rfl⟩
    · obtain ⟨rfl, hlast⟩ := List.append_inj' hsplit rfl
      obtain rfl := List.head_eq_of_cons_eq hlast
      exact .inl ⟨rfl, hfetch⟩
    · rw [List.concat_eq_append, ← List.cons_append, ← List.append_assoc] at hsplit
      obtain ⟨-, hlast⟩ := List.append_inj' hsplit rfl
      obtain rfl := List.head_eq_of_cons_eq hlast
      rw [List.concat_eq_append] at hcur ⊢
      exact .inr ⟨earlier, rfl, hcur.of_concat⟩
  · rintro (⟨rfl, hnew⟩ | ⟨earlier, rfl, hcur, hkept, hnew⟩)
    · exact current_of_fetch? hnew
    · exact hcur.concat hkept hnew

theorem not_current_nil : ¬ Current start [] fetch since := by
  rintro ⟨⟨before, now, hsplit, -⟩, -, -⟩
  simp at hsplit

/-- **The entry of a dimension** is its current fetch with the first outcome since. -/
theorem entryOf?_after_iff (hstart : start.entries = []) :
    (start.after h).entryOf? field = some entry ↔
      ∃ since, Current start h entry.fetch since ∧ entry.fetch.field = field ∧
        entry.settled = firstOutcome? entry.fetch.id since := by
  induction h using List.reverseRecOn generalizing entry with
  | nil => simp [entryOf?, hstart, not_current_nil]
  | append_singleton h e ih =>
    rw [after_append, after_cons, after_nil, entryOf?_step]
    simp only [current_concat_iff]
    split_ifs with hnew hdrops
    · -- The event starts a fetch for the dimension.
      rw [Option.some_inj]
      constructor
      · rintro rfl
        exact ⟨[], Or.inl ⟨rfl, hnew⟩, rfl, rfl⟩
      · rintro ⟨since, ⟨rfl, hfetch⟩ | ⟨earlier, -, -, -, hother⟩, hfield, hsettled⟩
        · obtain ⟨fetch, settled⟩ := entry
          obtain rfl : _ = fetch := Option.some_inj.1 (hnew.symm.trans hfetch)
          rw [show settled = none from hsettled]
        · rw [hfield] at hother
          exact absurd hnew hother
    · -- The event drops the list of the dimension.
      simp only [false_iff]
      rintro ⟨since, ⟨rfl, hfetch⟩ | ⟨earlier, -, -, hkept, -⟩, hfield, -⟩
      · rw [(fetch?_eq_some_iff.1 hfetch).1] at hdrops
        cases hdrops
      · rw [hfield, hdrops] at hkept
        cases hkept
    · -- The entry was there before.
      rw [Option.map_eq_some_iff]
      constructor
      · rintro ⟨⟨fetch, settled⟩, hentry, rfl⟩
        obtain ⟨since, hcur, hfield, hsettled⟩ := ih.1 hentry
        simp only at hcur hfield hsettled
        rw [hsettled, next_firstOutcome?]
        refine ⟨since ++ [e], Or.inr ⟨since, rfl, hcur, ?_, ?_⟩, hfield, rfl⟩
        · rw [hfield]
          simpa using hdrops
        · rw [hfield]
          exact hnew
      · rintro ⟨since, ⟨rfl, hfetch⟩ | ⟨earlier, rfl, hcur, -, -⟩, hfield, hsettled⟩
        · obtain ⟨-, -, hid⟩ := fetch?_eq_some_iff.1 hfetch
          exact absurd (by rw [hfetch, ← hid, ← hfield]) hnew
        · refine ⟨⟨entry.fetch, firstOutcome? entry.fetch.id earlier⟩,
            ih.2 ⟨earlier, hcur, hfield, rfl⟩, ?_⟩
          rw [next_firstOutcome?, ← hsettled]

/-! ## Look-ups -/

/-- The entry of a dimension stays until its list is dropped. -/
theorem isSome_entryOf?_after (hkept : ∀ e ∈ since, e.2.drops field = false)
    (hentry : (c.entryOf? field).isSome = true) :
    ((c.after since).entryOf? field).isSome = true := by
  induction since generalizing c with
  | nil => exact hentry
  | cons e since ih =>
    refine ih (fun e' he' => hkept e' (List.mem_cons_of_mem _ he')) ?_
    rw [entryOf?_step, hkept e List.mem_cons_self, if_neg Bool.false_ne_true]
    split_ifs
    · rfl
    · rw [Option.isSome_map]
      exact hentry

theorem entryOf?_after_eq_none_iff (hstart : start.entries = []) :
    (start.after h).entryOf? field = none ↔ Unasked h field := by
  constructor
  · rintro hnone before now since rfl
    by_contra hkept
    push Not at hkept
    have hasked : ((start.after before).step now (.lookup field)).entryOf? field ≠ none := by
      rw [step, entryOf?_lookup]
      exact Option.some_ne_none _
    have hlast := isSome_entryOf?_after (fun e he => by simpa using hkept e he)
      (Option.isSome_iff_ne_none.2 hasked)
    rw [after_append, after_cons] at hnone
    rw [hnone] at hlast
    cases hlast
  · intro hunasked
    rw [Option.eq_none_iff_forall_ne_some]
    intro entry hentry
    obtain ⟨since, hcur, rfl, -⟩ := (entryOf?_after_iff hstart).1 hentry
    obtain ⟨before, now, rfl, -⟩ := hcur.started
    obtain ⟨e, he, hdrops⟩ := hunasked before now since rfl
    rw [hcur.kept e he] at hdrops
    cases hdrops

theorem window_step (c : OptionCache) (now : Nat) (event : Event) :
    (c.step now event).window = c.window := by
  cases event with
  | lookup field =>
    cases hstarts : c.starts now field with
    | true =>
      rw [step, lookup_of_starts hstarts]
      rfl
    | false =>
      obtain ⟨e, -, -, hlookup⟩ := lookup_of_not_starts hstarts
      rw [step, hlookup]
  | _ => rfl

theorem window_after (c : OptionCache) (h : History) : (c.after h).window = c.window := by
  induction h generalizing c with
  | nil => rfl
  | cons e h ih => rw [after_cons, ih, window_step]

/-- **When a look-up starts a fetch.** -/
theorem starts_after_iff (hstart : start.entries = []) (now : Nat) (field : Dimension) :
    (start.after h).starts now field = true ↔ Unasked h field ∨
      ∃ fetch since outcome settledAt, Current start h fetch since ∧ fetch.field = field ∧
        firstOutcome? fetch.id since = some (outcome, settledAt) ∧
        start.window outcome ≤ now - settledAt := by
  rw [starts_iff, ← entryOf?_after_eq_none_iff hstart]
  constructor
  · intro hstale
    cases hentry : (start.after h).entryOf? field with
    | none => exact Or.inl rfl
    | some entry =>
      obtain ⟨since, hcur, hfield, hsettled⟩ := (entryOf?_after_iff hstart).1 hentry
      obtain ⟨outcome, settledAt, hsome, hwindow⟩ := isStale_iff.1 (hstale entry hentry)
      rw [window_after] at hwindow
      exact Or.inr ⟨entry.fetch, since, outcome, settledAt, hcur, hfield, hsettled ▸ hsome, hwindow⟩
  · rintro (hnone | ⟨fetch, since, outcome, settledAt, hcur, hfield, hsome, hwindow⟩) entry hentry
    · rw [hnone] at hentry
      cases hentry
    · have hown : (start.after h).entryOf? field = some ⟨fetch, firstOutcome? fetch.id since⟩ :=
        (entryOf?_after_iff hstart).2 ⟨since, hcur, hfield, rfl⟩
      obtain rfl := Option.some_inj.1 (hown.symm.trans hentry)
      refine isStale_iff.2 ⟨outcome, settledAt, hsome, ?_⟩
      rw [window_after]
      exact hwindow

theorem starts_after_of_pending (hstart : start.entries = []) (hcur : Current start h fetch since)
    (hpending : firstOutcome? fetch.id since = none) (now : Nat) :
    (start.after h).starts now fetch.field = false := by
  have hentry : (start.after h).entryOf? fetch.field = some ⟨fetch, none⟩ :=
    (entryOf?_after_iff hstart).2 ⟨since, hcur, rfl, hpending.symm⟩
  rw [Bool.eq_false_iff]
  intro hstarts
  obtain ⟨outcome, settledAt, hsettled, -⟩ := isStale_iff.1 (starts_iff.1 hstarts _ hentry)
  cases hsettled

/-- A fetch on its way, or with an outcome whose window has not passed, is looked up as it is. -/
theorem lookup_of_current (hstart : start.entries = []) (hcur : Current start h fetch since)
    (now : Nat) (hwindow : ∀ outcome settledAt, firstOutcome? fetch.id since =
      some (outcome, settledAt) → now - settledAt < start.window outcome) :
    (start.after h).lookup now fetch.field =
      (⟨fetch, firstOutcome? fetch.id since⟩, start.after h) := by
  have hentry : (start.after h).entryOf? fetch.field = some ⟨fetch, firstOutcome? fetch.id since⟩ :=
    (entryOf?_after_iff hstart).2 ⟨since, hcur, rfl, rfl⟩
  refine lookup_of_live hentry (isStale_eq_false_iff.2 ?_)
  rw [window_after]
  exact hwindow

/-- **What a look-up gets** is its current fetch with the first outcome since. -/
theorem lookup_after (hstart : start.entries = []) (now : Nat) (field : Dimension) :
    ∃ fetch since, Current start (h ++ [(now, .lookup field)]) fetch since ∧ fetch.field = field ∧
      ((start.after h).lookup now field).1 = ⟨fetch, firstOutcome? fetch.id since⟩ := by
  have hentry := entryOf?_lookup (start.after h) now field
  have hstep : ((start.after h).lookup now field).2 =
      start.after (h ++ [(now, .lookup field)]) := by
    rw [after_append]
    rfl
  rw [hstep, entryOf?_after_iff hstart] at hentry
  obtain ⟨since, hcur, hfield, hsettled⟩ := hentry
  exact ⟨_, since, hcur, hfield, by rw [← hsettled]⟩

theorem answered_of_current {now : Nat}
    (hcur : Current start (h ++ [(now, .lookup field)]) fetch since) (hfield : fetch.field = field)
    (hentry : entry = ⟨fetch, firstOutcome? fetch.id since⟩) :
    Answered start h now field entry fetch since := by
  subst hentry
  exact {
    current := hcur
    field_eq := hfield
    entry_eq := rfl
    status := fun _ => Entry.status_eq_iff
    awaited := fun later => by rw [firstOutcome?_append]; rfl }

/-! ## What does not concern an entry -/

theorem mem_fetches_of_entryOf? (hstart : start.entries = [])
    (hentry : (start.after h).entryOf? field = some entry) : entry.fetch ∈ fetches start h := by
  obtain ⟨since, hcur, -, -⟩ := (entryOf?_after_iff hstart).1 hentry
  exact hcur.mem_fetches

/-- An outcome changes nothing unless the fetch of an entry waits for it. -/
theorem settle_eq_self {id : Nat}
    (h : ∀ e ∈ c.entries, e.fetch.id = id → e.settled.isSome = true) (now : Nat)
    (outcome : OptionOutcome) : c.settle now id outcome = c := by
  have hkeep : ∀ e ∈ c.entries, (if e.fetch.id = id ∧ e.settled.isNone then
      { e with settled := some (outcome, now) } else e) = e := by
    intro e he
    refine if_neg fun hwaits => ?_
    have hsettled := h e he hwaits.1
    rw [Option.isSome_iff_ne_none] at hsettled
    exact hsettled (Option.isNone_iff_eq_none.1 hwaits.2)
  rw [settle, List.map_congr_left hkeep, List.map_id']

theorem entryOf?_of_mem_after (hstart : start.entries = []) (he : entry ∈ (start.after h).entries) :
    (start.after h).entryOf? entry.fetch.field = some entry ∧ entry.fetch ∈ fetches start h := by
  have hentry := entryOf?_of_mem (nodup_fields_after h (by simp [hstart])) he
  exact ⟨hentry, mem_fetches_of_entryOf? hstart hentry⟩

/-- The outcome of a fetch that is not current changes nothing. -/
theorem settle_of_not_current (hstart : start.entries = []) (hmem : fetch ∈ fetches start h)
    (hnot : ∀ since, ¬ Current start h fetch since) (now : Nat) (outcome : OptionOutcome) :
    (start.after h).settle now fetch.id outcome = start.after h := by
  refine settle_eq_self (fun e he hid => ?_) now outcome
  obtain ⟨hentry, hstarted⟩ := entryOf?_of_mem_after hstart he
  obtain ⟨since, hcur, -, -⟩ := (entryOf?_after_iff hstart).1 hentry
  obtain rfl := eq_of_id_eq hstarted hmem hid
  exact absurd hcur (hnot since)

theorem settle_of_settled (hstart : start.entries = [])
    (hentry : (start.after h).entryOf? field = some entry)
    (hsettled : entry.settled.isSome = true) (now : Nat) (outcome : OptionOutcome) :
    (start.after h).settle now entry.fetch.id outcome = start.after h := by
  refine settle_eq_self (fun e he hid => ?_) now outcome
  obtain ⟨hown, hstarted⟩ := entryOf?_of_mem_after hstart he
  have hfetch := eq_of_id_eq hstarted (mem_fetches_of_entryOf? hstart hentry) hid
  rw [hfetch, field_of_entryOf? hentry, hentry] at hown
  rw [← Option.some_inj.1 hown]
  exact hsettled

/-- An event leaves the entries of the dimensions that it does not concern. -/
theorem entryOf?_step_of_not_concerns (hstart : start.entries = []) (now : Nat) {event : Event}
    (hnot : ¬ event.Concerns (fetches start h) field) :
    ((start.after h).step now event).entryOf? field = (start.after h).entryOf? field := by
  rw [entryOf?_step, if_neg, if_neg]
  · cases event with
    | settle id outcome =>
      cases hentry : (start.after h).entryOf? field with
      | none => rfl
      | some entry =>
        have hid : entry.fetch.id ≠ id := fun hid =>
          hnot ⟨entry.fetch, mem_fetches_of_entryOf? hstart hentry, hid, field_of_entryOf? hentry⟩
        simp [Entry.next, hid]
    | _ => exact Option.map_id'
  · intro hdrops
    cases event with
    | invalidate dropped => exact hnot (beq_iff_eq.1 hdrops)
    | clear => exact hnot trivial
    | _ => cases hdrops
  · intro hfetch
    obtain ⟨rfl, -⟩ := fetch?_eq_some_iff.1 hfetch
    exact hnot rfl

/-! ## The history of a cache -/

/-- **One shared fetch for each dimension, never an outdated one.** -/
theorem one_fetch_per_dimension (listWindow failureWindow : Nat) (h : History) :
    Shares (fresh listWindow failureWindow) h := by
  have hstart : (fresh listWindow failureWindow).entries = [] := rfl
  exact {
    single := nodup_fields_after h (by simp [hstart])
    starts := starts_after_iff hstart
    pending := fun now fetch since hcur hpending => starts_after_of_pending hstart hcur hpending now
    answer := fun now field => by
      obtain ⟨fetch, since, hcur, hfield, hgot⟩ := lookup_after (h := h) hstart now field
      exact ⟨fetch, since, answered_of_current hcur hfield hgot⟩
    outdated := fun now outcome fetch hmem hnot =>
      settle_of_not_current hstart hmem hnot now outcome
    apart := fun now event field hnot => entryOf?_step_of_not_concerns hstart now hnot }

/-- The list of stores was dropped while its first fetch was on its way. The first outcome comes
late and changes nothing, and the second fetch is shared until it settles. -/
theorem one_fetch_per_dimension_dropped :
    let start := fresh 600 30
    let h : History := [(0, .lookup .store), (1, .invalidate .store), (2, .lookup .store)]
    let c := start.after h
    Current start h ⟨1, .store⟩ [] ∧ c.starts 3 .store = false ∧
      (∀ since, ¬ Current start h ⟨0, .store⟩ since) ∧ c.settle 4 0 (.ok []) = c ∧
      (c.step 5 (.lookup .channel)).entryOf? .store = c.entryOf? .store := by
  intro start h c
  have hshares := one_fetch_per_dimension 600 30 h
  have hfetches : fetches start h = [⟨0, .store⟩, ⟨1, .store⟩] := by decide
  have hcur : Current start h ⟨1, .store⟩ [] := {
    started := ⟨[(0, .lookup .store), (1, .invalidate .store)], 2, rfl, by decide⟩
    kept := by simp
    latest := by simp [hfetches] }
  have hold : ∀ since, ¬ Current start h ⟨0, .store⟩ since := fun since hcur =>
    absurd (hcur.latest ⟨1, .store⟩ (by simp [hfetches]) rfl) (by decide)
  have hnot : ¬ (Event.lookup .channel).Concerns (fetches start h) .store := by
    show ¬ Dimension.channel = .store
    decide
  exact ⟨hcur, hshares.pending 3 _ [] hcur rfl, hold,
    hshares.outdated 4 (.ok []) ⟨0, .store⟩ (hfetches ▸ List.mem_cons_self) hold,
    hshares.apart 5 _ .store hnot⟩

end OptionCache

end SalesExplorer
