import Mathlib.Data.List.Nodup
import Mathlib.Tactic.Common
import SalesExplorer.Options.Cache

/-!
# Histories of an option cache

A history lists what happened to an option cache, every event with its instant: look-ups, outcomes
of fetches, and requests to drop the list of one dimension or of all. Nothing is assumed of the
instants or of the order, so a fetch may settle after any delay, long after its entry was dropped.

**Steps** (`entryOf?_step`). What an event does to the entry of a dimension: a look-up may start a
fetch in its place, a drop leaves none, and otherwise the entry stays, settled if the event is the
first outcome of its fetch.

**Numbers** (`map_id_fetches`). The fetches of a history are numbered one after another, so a number
names one fetch.
-/

namespace SalesExplorer.OptionCache

/-- What can happen to an option cache. -/
inductive Event where
  | lookup (field : Dimension)
  | settle (fetch : Nat) (outcome : OptionOutcome)
  | invalidate (field : Dimension)
  | clear

/-- Events with their instants, the earliest first. -/
abbrev History := List (Nat × Event)

/-- The cache after one event. -/
def step (c : OptionCache) (now : Nat) : Event → OptionCache
  | .lookup field => (c.lookup now field).2
  | .settle fetch outcome => c.settle now fetch outcome
  | .invalidate field => c.invalidate field
  | .clear => c.clear

/-- The cache after a history. -/
def after (c : OptionCache) (h : History) : OptionCache := h.foldl (fun c e => c.step e.1 e.2) c

/-- A cache that nothing has happened to. -/
def fresh (listWindow failureWindow : Nat) : OptionCache := { listWindow, failureWindow }

/-- How long an outcome may be used. -/
def window (c : OptionCache) : OptionOutcome → Nat
  | .ok _ => c.listWindow
  | .error _ => c.failureWindow

/-- A look-up starts a fetch. -/
def starts (c : OptionCache) (now : Nat) (field : Dimension) : Bool :=
  c.started < (c.lookup now field).2.started

/-- The fetch that an event starts. -/
def Event.fetch? (c : OptionCache) (now : Nat) : Event → Option OptionFetch
  | .lookup field => if c.starts now field then some ⟨c.started, field⟩ else none
  | _ => none

/-- The fetches that a history starts, in order. -/
def fetches (c : OptionCache) : History → List OptionFetch
  | [] => []
  | e :: h => (e.2.fetch? c e.1).toList ++ fetches (c.step e.1 e.2) h

/-- An event drops the list of a dimension. -/
def Event.drops (field : Dimension) : Event → Bool
  | .invalidate dropped => dropped == field
  | .clear => true
  | _ => false

/-- An entry after an event that neither drops nor replaces it. -/
def Entry.next (e : Entry) (now : Nat) : Event → Entry
  | .settle fetch outcome =>
    if e.fetch.id = fetch ∧ e.settled.isNone then { e with settled := some (outcome, now) } else e
  | _ => e

variable {c : OptionCache} {now : Nat} {field other : Dimension} {e : Entry} {event : Event}
  {fetch : OptionFetch}

@[simp] theorem after_nil (c : OptionCache) : c.after [] = c := rfl

@[simp] theorem after_cons (c : OptionCache) (e : Nat × Event) (h : History) :
    c.after (e :: h) = (c.step e.1 e.2).after h := rfl

theorem after_append (c : OptionCache) (h k : History) : c.after (h ++ k) = (c.after h).after k :=
  List.foldl_append

/-! ## Entries -/

theorem field_of_entryOf? (h : c.entryOf? field = some e) : e.fetch.field = field := by
  simpa using List.find?_some h

theorem entryOf?_invalidate (c : OptionCache) (field other : Dimension) :
    (c.invalidate field).entryOf? other = if other = field then none else c.entryOf? other := by
  unfold entryOf? invalidate
  rw [List.find?_filter]
  split_ifs with h
  · subst h
    simp
  · congr 1
    funext e
    by_cases he : e.fetch.field = other
    · simp [he, h]
    · simp [he]

theorem entryOf?_start (c : OptionCache) (field other : Dimension) :
    (c.start field).2.entryOf? other =
      if other = field then some ⟨⟨c.started, field⟩, none⟩ else c.entryOf? other := by
  show List.find? _ ((c.invalidate field).entries ++ _) = _
  rw [List.find?_append]
  change ((c.invalidate field).entryOf? other).or _ = _
  rw [entryOf?_invalidate]
  split_ifs with h
  · subst h
    simp
  · simp [Ne.symm h]

theorem entryOf?_settle (c : OptionCache) (now id : Nat) (outcome : OptionOutcome)
    (field : Dimension) : (c.settle now id outcome).entryOf? field =
      (c.entryOf? field).map fun e => e.next now (.settle id outcome) := by
  unfold entryOf? settle
  rw [List.find?_map]
  congr 2
  funext e
  simp only [Function.comp]
  split_ifs <;> rfl

/-! ## Look-ups -/

theorem isStale_iff : c.isStale now e = true ↔
    ∃ outcome settledAt, e.settled = some (outcome, settledAt) ∧
      c.window outcome ≤ now - settledAt := by
  unfold isStale
  rcases e.settled with - | ⟨outcome | outcome, settledAt⟩ <;> simp [window]

theorem isStale_eq_false_iff : c.isStale now e = false ↔
    ∀ outcome settledAt, e.settled = some (outcome, settledAt) →
      now - settledAt < c.window outcome := by
  simp only [Bool.eq_false_iff, ne_eq, isStale_iff, not_exists, not_and, Nat.not_le]

theorem started_start (c : OptionCache) (field : Dimension) :
    (c.start field).2.started = c.started + 1 := rfl

theorem starts_iff :
    c.starts now field = true ↔ ∀ e, c.entryOf? field = some e → c.isStale now e = true := by
  unfold starts lookup
  cases hentry : c.entryOf? field with
  | none => simp [started_start]
  | some e => cases hstale : c.isStale now e <;> simp [started_start, hstale]

theorem lookup_of_starts (h : c.starts now field = true) : c.lookup now field = c.start field := by
  unfold lookup
  cases hentry : c.entryOf? field with
  | none => rfl
  | some e => simp [starts_iff.1 h e hentry]

/-- A look-up of an entry that is not stale gets it, and leaves the cache as it is. -/
theorem lookup_of_live (hentry : c.entryOf? field = some e) (hlive : c.isStale now e = false) :
    c.lookup now field = (e, c) := by
  rw [lookup, hentry]
  simp [hlive]

theorem lookup_of_not_starts (h : c.starts now field = false) :
    ∃ e, c.entryOf? field = some e ∧ c.isStale now e = false ∧ c.lookup now field = (e, c) := by
  have hlive : ¬ ∀ e, c.entryOf? field = some e → c.isStale now e = true := by
    rw [← starts_iff, h]
    exact Bool.false_ne_true
  push Not at hlive
  obtain ⟨e, hentry, hstale⟩ := hlive
  have hlive : c.isStale now e = false := by simpa using hstale
  exact ⟨e, hentry, hlive, lookup_of_live hentry hlive⟩

/-- A look-up gets the entry that the dimension has afterwards. -/
theorem entryOf?_lookup (c : OptionCache) (now : Nat) (field : Dimension) :
    (c.lookup now field).2.entryOf? field = some (c.lookup now field).1 := by
  cases h : c.starts now field with
  | true =>
    rw [lookup_of_starts h, entryOf?_start, if_pos rfl]
    rfl
  | false =>
    obtain ⟨e, hentry, -, hlookup⟩ := lookup_of_not_starts h
    rw [hlookup]
    exact hentry

theorem mem_lookup (he : e ∈ (c.lookup now field).2.entries) :
    e ∈ c.entries ∨ e = { fetch := ⟨c.started, field⟩ } := by
  cases hstarts : c.starts now field with
  | true =>
    rw [lookup_of_starts hstarts] at he
    rcases List.mem_append.1 he with he | he
    · exact .inl (List.mem_filter.1 he).1
    · exact .inr (List.mem_singleton.1 he)
  | false =>
    obtain ⟨e', -, -, hlookup⟩ := lookup_of_not_starts hstarts
    rw [hlookup] at he
    exact .inl he

/-! ## What an event does -/

theorem fetch?_eq_some_iff : event.fetch? c now = some fetch ↔
    event = .lookup fetch.field ∧ c.starts now fetch.field = true ∧ fetch.id = c.started := by
  obtain ⟨id, field⟩ := fetch
  cases event with
  | lookup looked =>
    simp only [Event.fetch?, Option.ite_none_right_eq_some, Option.some.injEq, OptionFetch.mk.injEq,
      Event.lookup.injEq]
    constructor
    · rintro ⟨hstarts, rfl, rfl⟩
      exact ⟨rfl, hstarts, rfl⟩
    · rintro ⟨rfl, hstarts, rfl⟩
      exact ⟨hstarts, rfl, rfl⟩
  | _ => simp [Event.fetch?]

/-- **What an event does to the entry of a dimension.** -/
theorem entryOf?_step (c : OptionCache) (now : Nat) (event : Event) (field : Dimension) :
    (c.step now event).entryOf? field =
      if event.fetch? c now = some ⟨c.started, field⟩ then some ⟨⟨c.started, field⟩, none⟩
      else if event.drops field then none
      else (c.entryOf? field).map (·.next now event) := by
  cases event with
  | lookup looked =>
    have hnext : (c.entryOf? field).map (·.next now (.lookup looked)) = c.entryOf? field :=
      Option.map_id'
    rw [hnext]
    cases hstarts : c.starts now looked with
    | true =>
      rw [step, lookup_of_starts hstarts, entryOf?_start]
      by_cases h : field = looked
      · subst h
        simp [Event.fetch?, hstarts]
      · simp [Event.fetch?, hstarts, Event.drops, h, Ne.symm h]
    | false =>
      obtain ⟨e, -, -, hlookup⟩ := lookup_of_not_starts hstarts
      rw [step, hlookup]
      simp [Event.fetch?, hstarts, Event.drops]
  | settle id outcome =>
    rw [step, entryOf?_settle]
    simp [Event.fetch?, Event.drops]
  | invalidate dropped =>
    have hnext : (c.entryOf? field).map (·.next now (.invalidate dropped)) = c.entryOf? field :=
      Option.map_id'
    rw [hnext, step, entryOf?_invalidate]
    by_cases h : field = dropped
    · simp [Event.fetch?, Event.drops, h]
    · simp [Event.fetch?, Event.drops, h, Ne.symm h]
  | clear => simp [Event.fetch?, Event.drops, step, clear, entryOf?]

/-! ## Numbers -/

theorem started_step (c : OptionCache) (now : Nat) (event : Event) :
    (c.step now event).started = c.started + (event.fetch? c now).toList.length := by
  cases event with
  | lookup field =>
    cases hstarts : c.starts now field with
    | true => simp [step, Event.fetch?, hstarts, lookup_of_starts hstarts, started_start]
    | false =>
      obtain ⟨e, -, -, hlookup⟩ := lookup_of_not_starts hstarts
      simp [step, Event.fetch?, hstarts, hlookup]
  | _ => rfl

theorem fetches_append (c : OptionCache) (h k : History) :
    fetches c (h ++ k) = fetches c h ++ fetches (c.after h) k := by
  induction h generalizing c with
  | nil => rfl
  | cons e h ih => simp only [List.cons_append, fetches, ih, after_cons, List.append_assoc]

/-- A fetch is started by a look-up of its dimension. -/
theorem exists_lookup_of_mem_fetches {h : History} (hf : fetch ∈ fetches c h) :
    ∃ now, (now, .lookup fetch.field) ∈ h := by
  induction h generalizing c with
  | nil => cases hf
  | cons e h ih =>
    rw [fetches, List.mem_append, Option.mem_toList] at hf
    rcases hf with hf | hf
    · obtain ⟨now, event⟩ := e
      obtain ⟨rfl, -⟩ := fetch?_eq_some_iff.1 hf
      exact ⟨now, List.mem_cons_self⟩
    · obtain ⟨now, hmem⟩ := ih hf
      exact ⟨now, List.mem_cons_of_mem e hmem⟩

/-- **The fetches are numbered one after another.** -/
theorem map_id_fetches (c : OptionCache) (h : History) :
    (fetches c h).map OptionFetch.id = List.range' c.started (fetches c h).length := by
  induction h generalizing c with
  | nil => rfl
  | cons e h ih =>
    rw [fetches, List.map_append, ih, started_step, List.length_append]
    cases hfetch : e.2.fetch? c e.1 with
    | none => simp
    | some fetch => simp [(fetch?_eq_some_iff.1 hfetch).2.2, List.range'_succ, Nat.add_comm 1]

theorem started_after (c : OptionCache) (h : History) :
    (c.after h).started = c.started + (fetches c h).length := by
  induction h generalizing c with
  | nil => rfl
  | cons e h ih => rw [after_cons, ih, started_step, fetches, List.length_append, Nat.add_assoc]

theorem id_lt_of_mem_fetches {h : History} (hf : fetch ∈ fetches c h) :
    fetch.id < (c.after h).started := by
  have hid : fetch.id ∈ (fetches c h).map OptionFetch.id := List.mem_map_of_mem hf
  rw [map_id_fetches, List.mem_range'_1] at hid
  rw [started_after]
  exact hid.2

theorem eq_of_id_eq {h : History} {f g : OptionFetch} (hf : f ∈ fetches c h)
    (hg : g ∈ fetches c h) (hid : f.id = g.id) : f = g := by
  have hnodup : ((fetches c h).map OptionFetch.id).Nodup := by
    rw [map_id_fetches]
    exact List.nodup_range'
  exact List.inj_on_of_nodup_map hnodup hf hg hid

/-! ## One entry for each dimension -/

theorem nodup_fields_step (now : Nat) (event : Event)
    (h : (c.entries.map (·.fetch.field)).Nodup) :
    ((c.step now event).entries.map (·.fetch.field)).Nodup := by
  have hdrop (field : Dimension) : ((c.invalidate field).entries.map (·.fetch.field)).Nodup :=
    h.sublist (List.filter_sublist.map _)
  cases event with
  | lookup field =>
    cases hstarts : c.starts now field with
    | true =>
      rw [step, lookup_of_starts hstarts]
      show (((c.invalidate field).entries ++ _).map _).Nodup
      rw [List.map_append, List.nodup_append]
      refine ⟨hdrop field, List.nodup_singleton _, fun f hf g hg => ?_⟩
      obtain ⟨e, he, rfl⟩ := List.mem_map.1 hf
      rw [List.mem_singleton.1 hg]
      simpa using (List.mem_filter.1 he).2
    | false =>
      obtain ⟨e, -, -, hlookup⟩ := lookup_of_not_starts hstarts
      rw [step, hlookup]
      exact h
  | settle id outcome =>
    have hfields : (c.settle now id outcome).entries.map (·.fetch.field) =
        c.entries.map (·.fetch.field) := by
      rw [settle, List.map_map]
      refine List.map_congr_left fun e _ => ?_
      simp only [Function.comp]
      split_ifs <;> rfl
    rw [step, hfields]
    exact h
  | invalidate field => exact hdrop field
  | clear => exact List.nodup_nil

theorem nodup_fields_after (h : History) (hc : (c.entries.map (·.fetch.field)).Nodup) :
    ((c.after h).entries.map (·.fetch.field)).Nodup := by
  induction h generalizing c with
  | nil => exact hc
  | cons e h ih => exact ih (nodup_fields_step e.1 e.2 hc)

theorem entryOf?_of_mem (hc : (c.entries.map (·.fetch.field)).Nodup) (he : e ∈ c.entries) :
    c.entryOf? e.fetch.field = some e := by
  have hfound : (c.entryOf? e.fetch.field).isSome = true :=
    List.find?_isSome.2 ⟨e, he, by simp⟩
  obtain ⟨e', he'⟩ := Option.isSome_iff_exists.1 hfound
  rw [he', List.inj_on_of_nodup_map hc (List.mem_of_find?_eq_some he') he (field_of_entryOf? he')]

end SalesExplorer.OptionCache
